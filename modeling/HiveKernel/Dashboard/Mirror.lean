import HiveKernel.Dashboard.Resync
import HiveKernel.Lib.Keyed
import HiveKernel.Lib.Since

/-! A page in a browser. It gets the whole tree when it asks for it or when a resync has found a drift, and else one
delta for each event, over a connection that keeps the order. A round of sending builds its message once and serves one
client after the other; a client whose turn it is may have gone, and the round may end before its turn. What is drawn
of the nodes that a page holds is left out. -/
namespace HiveKernel.Dashboard
open Lib

def nodeActivityMax : ℕ := 100
def nodeMessagesMax : ℕ := 50

structure Activity where
  ts : ℤ
  level : String
  message : String
  name : String

structure PageMessage where
  ts : ℤ
  fromPid : ℕ
  toPid : ℕ
  fromName : String
  toName : String
  type : String
  direction : String := ""
  messageId : String
  state : String := "sent"
  replyTo : String
  payloadPreview : String

structure Page where
  treeData : Option (List Node) := none
  nodeActivity : Table ℕ (List Activity) := .empty
  nodeMessages : Table ℕ (List PageMessage) := .empty

/-- What comes over the connection. There is no tree while the cache is empty. -/
inductive WsMessage
  | tree (nodes : Option (List Node))
  | delta (d : Delta)

/-- Append an entry to those of a process and drop the oldest ones beyond the limit. -/
def noted {α : Type} (limit : ℕ) (notes : Table ℕ (List α)) (pid : ℕ) (entry : α) : Table ℕ (List α) :=
  let entries := (notes.get pid).getD []++[entry]
  notes.set pid (entries.drop (entries.length-limit))

namespace Page

def recordMessage (entry : PageMessage) (notes : Table ℕ (List PageMessage)) (pid : ℕ) : Table ℕ (List PageMessage) :=
  if pid = 0 then notes
  else noted nodeMessagesMax notes pid
    { entry with direction := if pid = entry.fromPid then "outgoing" else "incoming" }

/-- Mark the messages of a process that have this id. -/
def markMessages (messageId state : String) (notes : Table ℕ (List PageMessage)) (pid : ℕ) :
    Table ℕ (List PageMessage) :=
  if pid = 0 then notes
  else match notes.get pid with
  | none => notes
  | some entries =>
    notes.set pid (entries.map fun entry =>
      if entry.messageId = messageId then { entry with state := state } else entry)

def recordMessageEvent (entry : PageMessage) (notes : Table ℕ (List PageMessage)) : Table ℕ (List PageMessage) :=
  let pids := [entry.fromPid,entry.toPid]
  let notes := pids.foldl (recordMessage entry) notes
  if entry.replyTo = "" then notes else pids.foldl (markMessages entry.replyTo "replied") notes

def setState (state : String) (n : Node) : Node := { n with state := state }

/-- A tree that is not there yet stays away. A node is appended even if its process is there already, and an update
changes the first node of a process. -/
def applyDelta (p : Page) : Delta → Page
  | .log pid name level message ts _ _ =>
    if pid = 0 then p
    else
      let entry : Activity := ⟨ts,if level = "" then "info" else level,message,name⟩
      { p with nodeActivity := noted nodeActivityMax p.nodeActivity pid entry }
  | .message fromPid toPid fromName toName type replyTo payloadPreview ts _ _ messageId =>
    let entry : PageMessage :=
      { ts := ts
        fromPid := fromPid
        toPid := toPid
        fromName := fromName
        toName := toName
        type := type
        messageId := messageId
        replyTo := replyTo
        payloadPreview := payloadPreview }
    { p with nodeMessages := recordMessageEvent entry p.nodeMessages }
  | .messageDelivered messageId toPid fromPid _ =>
    if messageId = "" then p
    else { p with nodeMessages := [fromPid,toPid].foldl (markMessages messageId "delivered") p.nodeMessages }
  | .add node => { p with treeData := p.treeData.map (fun nodes => nodes++[node]) }
  | .update pid state => { p with treeData := p.treeData.map (changeFirst Node.pid pid (setState state)) }
  | .remove pid => { p with treeData := p.treeData.map (List.filter (fun n => n.pid ≠ pid)) }

def onMessage (p : Page) : WsMessage → Page
  | .tree none => p
  | .tree (some nodes) => { p with treeData := some nodes }
  | .delta d => p.applyDelta d

end Page

/-- The log entry that follows a change of the tree. -/
def makeLifecycleLog {F : Type} (s : Replica F) (evt : ProcessEvent) : Option Delta :=
  if evt.type = .spawned then
    some (.log evt.pid evt.name "info" s!"Process spawned (role={evt.role}, model={evt.model})" (timestampMs evt) none
      none)
  else if evt.type = .stateChanged then
    some (.log evt.pid (((s.treeCache.get evt.pid).map Node.name).getD "") "info"
      s!"State: {evt.oldState} -> {evt.newState}" (timestampMs evt) none none)
  else if evt.type = .removed then
    some (.log evt.pid "" "info" "Process removed (reaped)" (timestampMs evt) none none)
  else none

/-- What the listener does next: take an event, send the delta of one to the clients, or send the log entry that
follows it. -/
inductive Listening
  | next
  | delta (evt : ProcessEvent) (d : Delta)
  | lifecycle (evt : ProcessEvent)
  | log (d : Delta)

/-- How a round of sending goes for the page. -/
inductive Fate
  | sent
  /-- The page is struck off the list of clients, unless the round does not come to its end. -/
  | failed (struck : Bool)
  /-- An exception ends the round before. -/
  | skipped
  deriving DecidableEq

/-- The server and one of its clients. Struck off the list, a client is still served when it asks for the tree. The
tree that a drift has the server push was built before the round. -/
structure Hub (F : Type) where
  replica : Replica F := {}
  listener : Listening := .next
  pushing : Option WsMessage := none
  connected : Bool := false
  listed : Bool := false
  queue : List WsMessage := []
  page : Page := {}

inductive HubOp
  | apply (now : ℤ) (evt : ProcessEvent)
  | send (fate : Fate)
  | makeLog
  /-- A resync puts another tree in the place of the cache. -/
  | replace (king : ProcessInfo) (children : List ProcessInfo)
  /-- A drift: the cache is replaced, unless the resync fails, and a round with its tree begins. -/
  | drift (fresh : Option (ProcessInfo × List ProcessInfo)) (order : List ℕ)
  | push (fate : Fate)
  | connect
  /-- The whole tree, at the beginning or on request. -/
  | sendTree (order : List ℕ)
  | receive
  | close

namespace Hub
variable {F : Type}

def start : Hub F := {}

def getTreeResponse (s : Replica F) (order : List ℕ) : Option (List Node) :=
  if s.treeCache.keys = [] then none else some (order.filterMap s.treeCache.get)

/-- The turn of the page in a round, if it is on the list. -/
def deliver (s : Hub F) (msg : WsMessage) : Fate → Hub F
  | .sent => { s with queue := if s.listed then s.queue++[msg] else s.queue }
  | .failed struck => { s with listed := s.listed && !struck }
  | .skipped => s

/-- What the listener does after its round. A round that is broken off has it begin anew. -/
def afterwards (after : Listening) : Fate → Listening
  | .skipped => .next
  | _ => after

def refreshed (s : Hub F) : Option (ProcessInfo × List ProcessInfo) → Hub F
  | some (king,children) => { s with replica := { s.replica with treeCache := newCache king children } }
  | none => s

def step (py : Python F) (s : Hub F) : HubOp → Option (Hub F)
  | .apply now evt => match s.listener with
    | .next => match s.replica.applyEvent py now evt with
      | (.ok (some d),replica) => some { s with replica := replica,listener := .delta evt d }
      | (.ok none,replica) => some { s with replica := replica,listener := .lifecycle evt }
      | (.error _,replica) => some { s with replica := replica }
    | _ => none
  | .send fate => match s.listener with
    | .delta evt d => some { s.deliver (.delta d) fate with listener := afterwards (.lifecycle evt) fate }
    | .log d => some { s.deliver (.delta d) fate with listener := .next }
    | _ => none
  | .makeLog => match s.listener with
    | .lifecycle evt => match makeLifecycleLog s.replica evt with
      | none => some { s with listener := .next }
      | some d => some { s with listener := .log d }
    | _ => none
  | .replace king children => some (s.refreshed (some (king,children)))
  | .drift fresh order =>
    if s.pushing.isNone ∧ (s.refreshed fresh).replica.treeCache.Enumerates order then
      some { s.refreshed fresh with pushing := some (.tree (getTreeResponse (s.refreshed fresh).replica order)) }
    else none
  | .push fate => s.pushing.map (fun msg => { s.deliver msg fate with pushing := none })
  | .connect => if s.connected then none else some { s with connected := true,listed := true,queue := [] }
  | .sendTree order =>
    if s.connected ∧ s.replica.treeCache.Enumerates order then
      some { s with queue := s.queue++[.tree (getTreeResponse s.replica order)] }
    else none
  | .receive => match s.queue with
    | [] => none
    | msg::queue => some { s with page := s.page.onMessage msg,queue := queue }
  | .close => some { s with connected := false,listed := false,queue := [] }

/-- What the listener is about to send. -/
def pending (s : Hub F) : List WsMessage :=
  match s.listener with
  | .delta _ d => [.delta d]
  | _ => []

/-- The page once it has received everything that is under way. -/
def drained (s : Hub F) : Page := (s.queue++s.pending).foldl Page.onMessage s.page

end Hub

/-- What a delta says about the tree. -/
def Delta.on (view : ℕ → Option Summary) : Delta → ℕ → Option Summary
  | .add node => Function.update view node.pid (some node.summary)
  | .update pid state => Function.update view pid ((view pid).map (Summary.inState state))
  | .remove pid => Function.update view pid none
  | _ => view

def Delta.touchesTree : Delta → Bool
  | .add _ | .update _ _ | .remove _ => true
  | _ => false

/-- The nodes of a page are those of a tree, each once. -/
def Holds (p : Page) (view : ℕ → Option Summary) : Prop :=
  ∃ nodes, p.treeData = some nodes ∧ Represents Node.pid Node.summary nodes view

lemma Holds.congr {p q : Page} {view : ℕ → Option Summary} (h : Holds p view) (htree : q.treeData = p.treeData) :
    Holds q view := by
  obtain ⟨nodes,hnodes,hrep⟩ := h
  exact ⟨nodes,htree.trans hnodes,hrep⟩

lemma treeData_applyDelta (p : Page) {d : Delta} (hd : d.touchesTree = false) :
    (p.applyDelta d).treeData = p.treeData := by
  cases d with
  | add node => cases hd
  | update pid state => cases hd
  | remove pid => cases hd
  | log pid name level message ts eventType fields =>
    simp only [Page.applyDelta]
    split
    · rfl
    · rfl
  | messageDelivered messageId toPid fromPid ts =>
    simp only [Page.applyDelta]
    split
    · rfl
    · rfl
  | message => rfl

/-- A page follows every delta but a node for a process that it has already. -/
lemma Holds.applyDelta {p : Page} {view : ℕ → Option Summary} (h : Holds p view) {d : Delta}
    (hnew : ∀ node, d = .add node → view node.pid = none) : Holds (p.applyDelta d) (d.on view) := by
  obtain ⟨nodes,hnodes,hrep⟩ := h
  cases d with
  | add node =>
    refine ⟨nodes++[node],?_,hrep.push (hnew node rfl)⟩
    simp only [Page.applyDelta,hnodes,Option.map_some]
  | update pid state =>
    refine ⟨_,?_,hrep.change pid (g := Page.setState state) (fun _ => rfl) (fun _ => rfl)⟩
    simp only [Page.applyDelta,hnodes,Option.map_some]
  | remove pid =>
    refine ⟨_,?_,hrep.remove pid⟩
    simp only [Page.applyDelta,hnodes,Option.map_some]
  | log pid name level message ts eventType fields =>
    exact Holds.congr ⟨nodes,hnodes,hrep⟩ (treeData_applyDelta p rfl)
  | messageDelivered messageId toPid fromPid ts =>
    exact Holds.congr ⟨nodes,hnodes,hrep⟩ (treeData_applyDelta p rfl)
  | message => exact Holds.congr ⟨nodes,hnodes,hrep⟩ (treeData_applyDelta p rfl)

namespace Replica
variable {F : Type}

/-- Each node is under the PID of its own. -/
def Keyed (s : Replica F) : Prop := ∀ k n, s.treeCache.get k = some n → n.pid = k

lemma get_recount_pid {tree : Table ℕ Node} (h : ∀ k n, tree.get k = some n → n.pid = k) (pid : ℕ) (count : ℕ → ℕ) :
    ∀ k n, (recount tree pid count).get k = some n → n.pid = k := by
  intro k n hn
  unfold recount at hn
  split at hn
  · exact h k n hn
  next parent hparent =>
    rcases Table.get_set_some hn with ⟨rfl,rfl⟩ | ⟨-,hn⟩
    · exact h k parent hparent
    · exact h k n hn

lemma keyed_congr {s t : Replica F} (h : s.Keyed) (ht : t.treeCache = s.treeCache) : t.Keyed := by
  unfold Keyed
  rw [ht]
  exact h

lemma treeCache_applyNote (py : Python F) (now : ℤ) (s : Replica F) (evt : ProcessEvent) :
    (s.applyNote py now evt).2.treeCache = s.treeCache := by
  unfold applyNote
  split
  · rfl
  split
  · unfold applyLlmCall
    split
    · rfl
    · rfl
  split
  · rfl
  split
  · rfl
  split
  · rfl
  split
  · unfold applyMessageSent
    dsimp only
    split_ifs
    · cases taskEntry py now evt with
      | error e => exact treeCache_recordMessage now s evt
      | ok entry => exact (treeCache_recordTask _ entry).trans (treeCache_recordMessage now s evt)
    · exact treeCache_recordMessage now s evt
  · rfl

lemma Keyed.applyEvent {s : Replica F} (h : s.Keyed) (py : Python F) (now : ℤ) (evt : ProcessEvent) :
    (s.applyEvent py now evt).2.Keyed := by
  unfold Replica.applyEvent
  dsimp only
  split_ifs
  · refine get_recount_pid (fun k n hn => ?_) _ _
    rcases Table.get_set_some hn with ⟨rfl,rfl⟩ | ⟨-,hn⟩
    · rfl
    · exact h k n hn
  · unfold applyStateChanged
    split
    · exact h
    next node hnode =>
      intro k n hn
      rcases Table.get_set_some hn with ⟨rfl,rfl⟩ | ⟨-,hn⟩
      · exact h _ node hnode
      · exact h k n hn
  · unfold applyRemoved
    intro k n hn
    dsimp only at hn
    split at hn
    · exact h k n hn
    · exact get_recount_pid (fun k n hn => h k n (Table.get_erase_some hn).2) _ _ k n hn
  · exact keyed_congr h (treeCache_applyNote py now _ evt)

lemma touchesTree_applyNote (py : Python F) (now : ℤ) (s : Replica F) (evt : ProcessEvent) {d : Delta}
    (hd : (s.applyNote py now evt).1 = .ok (some d)) : d.touchesTree = false := by
  unfold applyNote at hd
  split at hd
  · cases hd
    rfl
  split at hd
  · unfold applyLlmCall at hd
    split at hd
    · cases hd
      rfl
    · cases hd
  split at hd
  · cases hd
    rfl
  split at hd
  · cases hd
    rfl
  split at hd
  · cases hd
    rfl
  split at hd
  · unfold applyMessageSent at hd
    dsimp only at hd
    split at hd
    · split at hd
      · cases hd
      · cases hd
        rfl
    · cases hd
      rfl
  · cases hd

lemma on_of_not_touchesTree {d : Delta} (hd : d.touchesTree = false) (view : ℕ → Option Summary) :
    d.on view = view := by
  cases d with
  | add node => cases hd
  | update pid state => cases hd
  | remove pid => cases hd
  | _ => rfl

/-- The node that is sent has the PID and the summary of the event. -/
lemma applySpawned_delta (s : Replica F) (evt : ProcessEvent) : ∃ node, (s.applySpawned evt).1 = some (.add node) ∧
    node.pid = evt.pid ∧ node.summary = (spawnedNode evt).summary := by
  refine ⟨_,rfl,?_⟩
  have hset : (s.treeCache.set evt.pid (spawnedNode evt)).get evt.pid = some (spawnedNode evt) :=
    Table.get_set_self _ _ _
  unfold recount
  split
  · rw [hset]
    exact ⟨rfl,rfl⟩
  next parent hparent =>
    rw [Table.get_set]
    split_ifs with hself
    · rw [← hself,hset] at hparent
      obtain rfl := Option.some.inj hparent
      exact ⟨rfl,rfl⟩
    · rw [hset]
      exact ⟨rfl,rfl⟩

/-- The delta of an event says what the event does to the tree. -/
lemma applyEvent_delta {py : Python F} {now : ℤ} {s t : Replica F} {evt : ProcessEvent} {d : Delta}
    (h : s.applyEvent py now evt = (.ok (some d),t)) : t.view = d.on s.view ∧
      ∀ node, d = .add node → node.pid = evt.pid ∧ evt.type = .spawned := by
  have hview : t.view = shown s.view evt := by
    rw [← view_applyEvent py now,h]
  have hd : (s.applyEvent py now evt).1 = .ok (some d) := by rw [h]
  unfold Replica.applyEvent at hd
  unfold shown at hview
  dsimp only at hd
  split_ifs at hd hview with hspawned hchanged hremoved
  · obtain ⟨node,hnode,hpid,hsummary⟩ := applySpawned_delta
      { s with lastSeq := evt.seq, traceLog := recordTrace s.traceLog evt } evt
    rw [hnode] at hd
    cases hd
    refine ⟨?_,fun node' hadd => ?_⟩
    · rw [hview,Delta.on,hpid,hsummary]
    · cases hadd
      exact ⟨hpid,hspawned⟩
  · unfold applyStateChanged at hd
    split at hd
    · cases hd
    · cases hd
      exact ⟨hview,(fun node hadd => by cases hadd)⟩
  · cases hd
    exact ⟨hview,(fun node hadd => by cases hadd)⟩
  · have htouches := touchesTree_applyNote py now _ evt hd
    refine ⟨?_,fun node hadd => ?_⟩
    · rw [hview,on_of_not_touchesTree htouches]
    · rw [hadd] at htouches
      cases htouches

/-- An event without a delta does nothing to the tree. -/
lemma applyEvent_silent {py : Python F} {now : ℤ} {s t : Replica F} {evt : ProcessEvent}
    {result : Except PyError (Option Delta)} (h : s.applyEvent py now evt = (result,t))
    (hnone : ∀ d, result ≠ .ok (some d)) : t.view = s.view := by
  have hview : t.view = shown s.view evt := by
    rw [← view_applyEvent py now,h]
  have hd : (s.applyEvent py now evt).1 = result := by rw [h]
  unfold Replica.applyEvent at hd
  unfold shown at hview
  dsimp only at hd
  split_ifs at hd hview with hspawned hchanged hremoved
  · exact absurd hd.symm (hnone _)
  · unfold applyStateChanged at hd
    split at hd
    next hget =>
      have hgone : s.view evt.pid = none := by
        unfold view
        rw [hget]
        rfl
      rw [hview,hgone,Option.map_none,← hgone,Function.update_eq_self]
    next => exact absurd hd.symm (hnone _)
  · exact absurd hd.symm (hnone _)
  · exact hview

end Replica
namespace Hub
variable {F : Type} {py : Python F} {s t : Hub F} {op : HubOp}

/-- The page will hold the tree of the cache. -/
def Mirrors (s : Hub F) : Prop := Holds s.drained s.replica.view

/-- A change of the tree is about to be sent. -/
def PendingTree (s : Hub F) : Prop := ∃ evt d, s.listener = .delta evt d ∧ d.touchesTree = true

/-- The tree that is pushed is still the one of the cache, and no change is on the way. -/
def Current (s : Hub F) : Prop :=
  ¬s.PendingTree ∧ ∃ nodes, s.pushing = some (.tree (some nodes)) ∧
    Represents Node.pid Node.summary nodes s.replica.view

/-- What takes the page away from the cache: a process that it has is added again, a change does not reach it or
reaches it after a tree that has it already, a tree reaches it after changes that it does not have, the cache is
replaced, or the connection ends. -/
def Disturbs (e : Transition (Hub F) HubOp) : Prop :=
  match e.label with
  | .apply _ evt => evt.type = .spawned ∧ (e.source.replica.view evt.pid).isSome
  | .send fate => e.source.PendingTree ∧ ¬(e.source.listed = true ∧ fate = .sent)
  | .push fate => (e.source.listed = true ∧ fate = .sent) ∧ ¬e.source.Current
  | .sendTree _ => e.source.PendingTree
  | .drift fresh _ => fresh.isSome
  | .replace _ _ | .connect | .close => True
  | .makeLog | .receive => False

/-- The page is sent the tree of the cache, with no change on the way to it. -/
def Refreshes (e : Transition (Hub F) HubOp) : Prop :=
  ((∃ order, e.label = .sendTree order) ∧ ¬e.source.PendingTree ∧ e.source.replica.treeCache.keys ≠ []) ∨
    (e.label = .push .sent ∧ e.source.listed = true ∧ e.source.Current)

/-- The page once it has received what is in the queue. -/
def received (s : Hub F) : Page := s.queue.foldl Page.onMessage s.page

lemma drained_of_delta {evt : ProcessEvent} {d : Delta} (h : s.listener = .delta evt d) :
    s.drained = s.received.applyDelta d := by
  unfold drained received pending
  rw [h,List.foldl_append]
  rfl

lemma drained_of_no_delta (h : ∀ evt d, s.listener ≠ .delta evt d) : s.drained = s.received := by
  have hpending : s.pending = [] := by
    unfold pending
    split
    next evt d hl => exact absurd hl (h evt d)
    next => rfl
  rw [drained,hpending,List.append_nil]
  rfl

lemma treeData_drained (h : ¬s.PendingTree) : s.drained.treeData = s.received.treeData := by
  by_cases hdelta : ∃ evt d, s.listener = .delta evt d
  · obtain ⟨evt,d,hl⟩ := hdelta
    rw [drained_of_delta hl]
    refine treeData_applyDelta _ ?_
    by_contra htouches
    exact h ⟨evt,d,hl,Bool.not_eq_false _ |>.mp htouches⟩
  · rw [drained_of_no_delta (fun evt d hl => hdelta ⟨evt,d,hl⟩)]

lemma not_pendingTree {l : Listening} (h : s.listener = l) (hl : ∀ evt d, l ≠ .delta evt d) : ¬s.PendingTree := by
  rintro ⟨evt,d,hd,-⟩
  exact hl evt d (h.symm.trans hd)

lemma afterwards_ne {after : Listening} (h : ∀ evt d, after ≠ .delta evt d) (fate : Fate) (evt : ProcessEvent)
    (d : Delta) : afterwards after fate ≠ .delta evt d := by
  cases fate with
  | sent => exact h evt d
  | failed struck => exact h evt d
  | skipped => exact fun hskipped => by cases hskipped

/-- A turn concerns the queue and the list only. -/
lemma deliver_frame (s : Hub F) (msg : WsMessage) (fate : Fate) :
    (s.deliver msg fate).replica = s.replica ∧ (s.deliver msg fate).page = s.page ∧
      (s.deliver msg fate).listener = s.listener := by
  cases fate with
  | sent => exact ⟨rfl,rfl,rfl⟩
  | failed struck => exact ⟨rfl,rfl,rfl⟩
  | skipped => exact ⟨rfl,rfl,rfl⟩

lemma queue_deliver (s : Hub F) (msg : WsMessage) (fate : Fate) : (s.deliver msg fate).queue =
    if s.listed = true ∧ fate = .sent then s.queue++[msg] else s.queue := by
  cases fate with
  | sent => simp [deliver]
  | failed struck => simp [deliver]
  | skipped => simp [deliver]

lemma received_deliver (s : Hub F) (msg : WsMessage) (fate : Fate) : (s.deliver msg fate).received =
    if s.listed = true ∧ fate = .sent then s.received.onMessage msg else s.received := by
  unfold received
  rw [queue_deliver,(deliver_frame s msg fate).2.1]
  split_ifs
  · rw [List.foldl_append]
    rfl
  · rfl

/-- Whether a delta that leaves the tree alone arrives does not matter. -/
lemma treeData_deliver {d : Delta} (hd : d.touchesTree = false) (fate : Fate) :
    (s.deliver (.delta d) fate).received.treeData = s.received.treeData := by
  rw [received_deliver]
  split_ifs
  · exact treeData_applyDelta _ hd
  · rfl

lemma touchesTree_makeLifecycleLog {replica : Replica F} {evt : ProcessEvent} {d : Delta}
    (h : makeLifecycleLog replica evt = some d) : d.touchesTree = false := by
  unfold makeLifecycleLog at h
  split at h
  · cases h
    rfl
  split at h
  · cases h
    rfl
  split at h
  · cases h
    rfl
  · cases h

lemma Mirrors.apply (h : s.Mirrors) {now : ℤ} {evt : ProcessEvent} (hs : s.step py (.apply now evt) = some t)
    (hnew : ¬(evt.type = .spawned ∧ (s.replica.view evt.pid).isSome)) : t.Mirrors := by
  simp only [step] at hs
  split at hs
  next hl =>
    have hdrained : s.drained = s.received := by
      unfold drained received pending
      rw [hl,List.append_nil]
    unfold Mirrors at h
    rw [hdrained] at h
    split at hs
    next d replica happly =>
      cases hs
      obtain ⟨hview,hadd⟩ := Replica.applyEvent_delta happly
      unfold Mirrors
      rw [drained_of_delta rfl,hview]
      refine h.applyDelta (fun node hd => ?_)
      obtain ⟨hpid,hspawned⟩ := hadd node hd
      rw [hpid]
      by_contra hsome
      exact hnew ⟨hspawned,Option.isSome_iff_ne_none.mpr hsome⟩
    next replica happly =>
      cases hs
      have hview := Replica.applyEvent_silent happly (fun d hd => by cases hd)
      unfold Mirrors
      rw [hview]
      exact h.congr (treeData_drained (not_pendingTree rfl (fun _ _ h => by cases h)))
    next replica happly =>
      cases hs
      have hview := Replica.applyEvent_silent happly (fun d hd => by cases hd)
      unfold Mirrors
      rw [hview]
      exact h.congr (treeData_drained (not_pendingTree hl (fun _ _ h => by cases h)))
  next => cases hs

lemma Mirrors.send (h : s.Mirrors) (hlog : ∀ d, s.listener = .log d → d.touchesTree = false) {fate : Fate}
    (hs : s.step py (.send fate) = some t)
    (harrives : ¬(s.PendingTree ∧ ¬(s.listed = true ∧ fate = .sent))) : t.Mirrors := by
  have hquiet : ∀ (d : Delta) (after : Listening), d.touchesTree = false → ¬s.PendingTree →
      (∀ evt d, after ≠ .delta evt d) → Mirrors { s.deliver (.delta d) fate with listener := after } := by
    intro d after hd hpending hafter
    unfold Mirrors
    dsimp only
    rw [(deliver_frame s _ fate).1]
    refine h.congr ((treeData_drained (not_pendingTree rfl hafter)).trans ?_)
    exact (treeData_deliver hd fate).trans (treeData_drained hpending).symm
  simp only [step] at hs
  split at hs
  next evt d hl =>
    cases hs
    by_cases hpending : s.PendingTree
    · have hsent : s.listed = true ∧ fate = .sent := by
        by_contra hnot
        exact harrives ⟨hpending,hnot⟩
      have hdrained : Hub.drained { s.deliver (.delta d) fate with listener := afterwards (.lifecycle evt) fate } =
          s.drained := by
        rw [drained_of_delta hl,drained_of_no_delta (afterwards_ne (fun _ _ h => by cases h) fate)]
        exact (received_deliver s (.delta d) fate).trans (if_pos hsent)
      unfold Mirrors
      rw [hdrained]
      dsimp only
      rw [(deliver_frame s _ fate).1]
      exact h
    · have hd : d.touchesTree = false := by
        by_contra htouches
        exact hpending ⟨evt,d,hl,Bool.not_eq_false _ |>.mp htouches⟩
      exact hquiet d _ hd hpending (afterwards_ne (fun _ _ h => by cases h) fate)
  next d hl =>
    cases hs
    exact hquiet d _ (hlog d hl) (not_pendingTree hl (fun _ _ h => by cases h)) (fun _ _ h => by cases h)
  next => cases hs

lemma Mirrors.makeLog (h : s.Mirrors) (hs : s.step py .makeLog = some t) : t.Mirrors := by
  simp only [step] at hs
  split at hs
  next evt hl =>
    have hdrained := drained_of_no_delta (s := s) (fun evt d hdelta => by rw [hl] at hdelta; cases hdelta)
    unfold Mirrors at h
    rw [hdrained] at h
    split at hs
    · cases hs
      exact h.congr (congrArg Page.treeData (drained_of_no_delta (fun _ _ hdelta => by cases hdelta)))
    · cases hs
      exact h.congr (congrArg Page.treeData (drained_of_no_delta (fun _ _ hdelta => by cases hdelta)))
  next => cases hs

/-- A tree that is still current is as good as one that is sent on request. -/
lemma mirrors_push {fate : Fate} (hs : s.step py (.push fate) = some t)
    (h : (s.listed = true ∧ fate = .sent) ∧ s.Current ∨ ¬(s.listed = true ∧ fate = .sent) ∧ s.Mirrors) :
    t.Mirrors := by
  obtain ⟨msg,hmsg,rfl⟩ := Option.map_eq_some_iff.mp hs
  have hframe := deliver_frame s msg fate
  unfold Mirrors
  dsimp only
  rw [hframe.1]
  rcases h with ⟨hsent,hquiet,nodes,hnodes,hrep⟩ | ⟨hnot,hmirrors⟩
  · obtain rfl : msg = .tree (some nodes) := Option.some.inj (hmsg.symm.trans hnodes)
    have hquiet' : ¬PendingTree { s.deliver (.tree (some nodes)) fate with pushing := none } := by
      rintro ⟨evt,d,hl,hd⟩
      exact hquiet ⟨evt,d,hframe.2.2.symm.trans hl,hd⟩
    refine ⟨nodes,(treeData_drained hquiet').trans ?_,hrep⟩
    change (s.deliver (.tree (some nodes)) fate).received.treeData = some nodes
    rw [received_deliver,if_pos hsent]
    rfl
  · have hdrained : Hub.drained { s.deliver msg fate with pushing := none } = s.drained := by
      unfold drained pending
      dsimp only
      rw [queue_deliver,if_neg hnot,hframe.2.1,hframe.2.2]
    exact hmirrors.congr (congrArg Page.treeData hdrained)

lemma mirrors_sendTree {order : List ℕ} (hs : s.step py (.sendTree order) = some t) (hkeyed : s.replica.Keyed)
    (hquiet : ¬s.PendingTree) (h : s.replica.treeCache.keys ≠ [] ∨ s.Mirrors) : t.Mirrors := by
  simp only [step] at hs
  split_ifs at hs with hconnected
  cases hs
  have htree : ∀ msg, ({ s with queue := s.queue++[msg] } : Hub F).drained.treeData =
      (s.received.onMessage msg).treeData := by
    intro msg
    have hsame : ({ s with queue := s.queue++[msg] } : Hub F).received = s.received.onMessage msg := by
      unfold received
      rw [List.foldl_append]
      rfl
    rw [← hsame]
    exact treeData_drained hquiet
  unfold getTreeResponse at *
  by_cases hempty : s.replica.treeCache.keys = []
  · rw [if_pos hempty] at *
    exact (h.resolve_left (not_not.mpr hempty)).congr ((htree _).trans (treeData_drained hquiet).symm)
  · rw [if_neg hempty]
    exact ⟨_,htree _,Represents.of_enumerates hkeyed hconnected.2⟩

/-- What holds in every state of a run. -/
structure Sound (s : Hub F) : Prop where
  keyed : s.replica.Keyed
  log : ∀ d, s.listener = .log d → d.touchesTree = false

lemma Mirrors.step (h : s.Mirrors) (hsound : s.Sound) (hs : s.step py op = some t)
    (hop : ¬Disturbs ⟨s,op,t⟩) : t.Mirrors := by
  cases op with
  | apply now evt => exact h.apply hs hop
  | send fate => exact h.send hsound.log hs hop
  | makeLog => exact h.makeLog hs
  | replace king children => exact absurd trivial hop
  | drift fresh order =>
    cases fresh with
    | some listing => exact absurd rfl hop
    | none =>
      simp only [Hub.step] at hs
      split_ifs at hs
      cases hs
      exact h
  | push fate =>
    refine mirrors_push hs ?_
    by_cases hsent : s.listed = true ∧ fate = .sent
    · refine .inl ⟨hsent,?_⟩
      by_contra hstale
      exact hop ⟨hsent,hstale⟩
    · exact .inr ⟨hsent,h⟩
  | connect => exact absurd trivial hop
  | sendTree order => exact mirrors_sendTree hs hsound.keyed hop (.inr h)
  | receive =>
    simp only [Hub.step] at hs
    split at hs
    next => cases hs
    next msg queue hqueue =>
      cases hs
      have hdrained : s.drained = ({ s with page := s.page.onMessage msg,queue := queue } : Hub F).drained := by
        unfold drained
        rw [hqueue]
        rfl
      unfold Mirrors at h
      rw [hdrained] at h
      exact h
  | close => exact absurd trivial hop

lemma keyed_newCache (king : ProcessInfo) (children : List ProcessInfo) (k : ℕ) (n : Node)
    (hn : (newCache king children).get k = some n) : n.pid = k := by
  rcases get_newCache king children k with ⟨info,-,hpid,hget⟩ | ⟨-,hget⟩
  · obtain rfl := Option.some.inj (hn.symm.trans hget)
    exact hpid
  · rw [hn] at hget
    cases hget

lemma keyed_refreshed (h : s.replica.Keyed) (fresh : Option (ProcessInfo × List ProcessInfo)) :
    (s.refreshed fresh).replica.Keyed := by
  cases fresh with
  | none => exact h
  | some listing => exact keyed_newCache listing.1 listing.2

lemma Sound.apply (h : s.Sound) {now : ℤ} {evt : ProcessEvent} (hs : s.step py (.apply now evt) = some t) :
    t.Sound := by
  have happlied := h.keyed.applyEvent py now evt
  simp only [step] at hs
  split at hs
  next hl =>
    split at hs
    next happly =>
      cases hs
      rw [happly] at happlied
      exact ⟨happlied,fun d hd => by cases hd⟩
    next happly =>
      cases hs
      rw [happly] at happlied
      exact ⟨happlied,fun d hd => by cases hd⟩
    next happly =>
      cases hs
      rw [happly] at happlied
      exact ⟨happlied,fun d hd => by rw [hl] at hd; cases hd⟩
  next => cases hs

/-- After a round for an event comes its log entry, and after that the next event. -/
lemma Sound.send (h : s.Sound) {fate : Fate} (hs : s.step py (.send fate) = some t) : t.Sound := by
  simp only [step] at hs
  split at hs
  next evt d hl =>
    cases hs
    refine ⟨?_,fun d' hd' => ?_⟩
    · dsimp only
      rw [(deliver_frame s _ fate).1]
      exact h.keyed
    · cases fate with
      | sent => cases hd'
      | failed struck => cases hd'
      | skipped => cases hd'
  next d hl =>
    cases hs
    refine ⟨?_,fun d' hd' => by cases hd'⟩
    dsimp only
    rw [(deliver_frame s _ fate).1]
    exact h.keyed
  next => cases hs

lemma Sound.step (h : s.Sound) (hs : s.step py op = some t) : t.Sound := by
  cases op with
  | apply now evt => exact h.apply hs
  | send fate => exact h.send hs
  | makeLog =>
    simp only [Hub.step] at hs
    split at hs
    next evt hl =>
      split at hs
      next => 
        cases hs
        exact ⟨h.keyed,fun d hd => by cases hd⟩
      next d hlog =>
        cases hs
        refine ⟨h.keyed,fun d' hd' => ?_⟩
        cases hd'
        exact touchesTree_makeLifecycleLog hlog
    next => cases hs
  | replace king children =>
    cases hs
    exact ⟨keyed_refreshed h.keyed _,h.log⟩
  | drift fresh order =>
    simp only [Hub.step] at hs
    split_ifs at hs
    cases hs
    refine ⟨keyed_refreshed h.keyed fresh,?_⟩
    cases fresh with
    | none => exact h.log
    | some listing => exact h.log
  | push fate =>
    obtain ⟨msg,-,rfl⟩ := Option.map_eq_some_iff.mp hs
    obtain ⟨hreplica,-,hlistener⟩ := deliver_frame s msg fate
    refine ⟨?_,fun d hd => h.log d (hlistener.symm.trans hd)⟩
    dsimp only
    rw [hreplica]
    exact h.keyed
  | connect =>
    simp only [Hub.step] at hs
    split_ifs at hs
    cases hs
    exact ⟨h.keyed,h.log⟩
  | sendTree order =>
    simp only [Hub.step] at hs
    split_ifs at hs
    cases hs
    exact ⟨h.keyed,h.log⟩
  | receive =>
    simp only [Hub.step] at hs
    split at hs
    · cases hs
    · cases hs
      exact ⟨h.keyed,h.log⟩
  | close =>
    cases hs
    exact ⟨h.keyed,h.log⟩

lemma sound_start : (start : Hub F).Sound where
  keyed _ _ hn := by cases hn
  log _ hd := by cases hd

/-- Since the page was sent a tree nothing has disturbed it. -/
def Undisturbed (trace : List (Transition (Hub F) HubOp)) : Prop :=
  Since (fun past => ∃ e, past.getLast? = some e ∧ Refreshes e) Disturbs trace

end Hub
end HiveKernel.Dashboard
