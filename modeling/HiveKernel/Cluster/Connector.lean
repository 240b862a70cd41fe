import HiveKernel.Lib.Since
import HiveKernel.Lib.Table

/-! Connections to remote nodes. Three errors in a row take a connection out of service, and a message that is
refused then does not count as a success; only a recorded success or a new connection brings it back. -/
namespace HiveKernel
open Lib

inductive ConnState
  | idle | connecting | ready | unhealthy | closed
  deriving DecidableEq, Repr

def ConnState.string : ConnState → String
  | idle => "idle"
  | connecting => "connecting"
  | ready => "ready"
  | unhealthy => "unhealthy"
  | closed => "closed"

structure VPSConnection where
  nodeID : String
  address : String
  state : ConnState
  createdAt : ℤ
  lastUsed : ℤ
  messagesSent : UInt64 := 0
  /-- errors in a row -/
  errors : ℕ := 0
  deriving DecidableEq, Repr

structure ForwardedMessage where
  id : String
  fromPID : ℕ
  toPID : ℕ
  toQueue : String
  type : String
  payload : List UInt8
  deriving DecidableEq, Repr

/-- A connection stands under its own node. -/
structure Connector where
  connections : Table String VPSConnection
  forwarded : List ForwardedMessage
  maxErrors : ℕ
  id_eq : ∀ {k conn}, connections.get k = some conn → conn.nodeID = k

namespace Connector

def new : Connector := ⟨.empty,[],3,fun h => by cases h⟩

def noConnection (nodeID : String) : String := s!"no connection to node {nodeID.quote}"

/-- Write the entry of a node. -/
def put (c : Connector) (conn : VPSConnection) : Connector where
  connections := c.connections.set conn.nodeID conn
  forwarded := c.forwarded
  maxErrors := c.maxErrors
  id_eq := by
    intro k other h
    rcases Table.get_set_some h with ⟨rfl,rfl⟩ | ⟨-,h⟩
    · rfl
    · exact c.id_eq h

/-- A connection that exists is replaced. -/
def connect (c : Connector) (now : ℤ) (nodeID address : String) : Except String Connector :=
  if nodeID = "" then .error "node ID is required"
  else if address = "" then .error "address is required"
  else .ok (c.put
    { nodeID := nodeID, address := address, state := .ready, createdAt := now, lastUsed := now })

def getConnection (c : Connector) (nodeID : String) : Except String VPSConnection :=
  match c.connections.get nodeID with
  | none => .error (noConnection nodeID)
  | some conn => .ok conn

/-- The closed connection is not in the table any more. -/
def disconnect (c : Connector) (nodeID : String) : Except String Connector :=
  match c.connections.get nodeID with
  | none => .error (noConnection nodeID)
  | some _ => .ok
    { c with
      connections := c.connections.erase nodeID
      id_eq := fun h => c.id_eq (Table.get_erase_some h).2 }

def isConnected (c : Connector) (nodeID : String) : Bool :=
  match c.connections.get nodeID with
  | none => false
  | some conn => conn.state = .ready

/-- The entry after a message went out. -/
def used (now : ℤ) (conn : VPSConnection) : VPSConnection :=
  { conn with messagesSent := conn.messagesSent+1, lastUsed := now, errors := 0 }

/-- Every message that goes out is logged. -/
def log (c : Connector) (msg : ForwardedMessage) : Connector := { c with forwarded := c.forwarded++[msg] }

def forwardMessage (c : Connector) (now : ℤ) (nodeID : String) (msg : ForwardedMessage) :
    Except String Connector :=
  match c.connections.get nodeID with
  | none => .error (noConnection nodeID)
  | some conn =>
    if conn.state ≠ .ready then
      .error s!"connection to {nodeID.quote} is {conn.state.string}, not ready"
    else .ok ((c.put (used now conn)).log msg)

/-- The entry after an error. -/
def failed (maxErrors : ℕ) (conn : VPSConnection) : VPSConnection :=
  { conn with
    errors := conn.errors+1
    state := if maxErrors ≤ conn.errors+1 then .unhealthy else conn.state }

def recordError (c : Connector) (nodeID : String) : Except String Connector :=
  match c.connections.get nodeID with
  | none => .error (noConnection nodeID)
  | some conn => .ok (c.put (failed c.maxErrors conn))

/-- The entry after a success. -/
def recovered (now : ℤ) (conn : VPSConnection) : VPSConnection :=
  { conn with
    errors := 0
    state := if conn.state = .unhealthy then .ready else conn.state
    lastUsed := now }

def recordSuccess (c : Connector) (now : ℤ) (nodeID : String) : Except String Connector :=
  match c.connections.get nodeID with
  | none => .error (noConnection nodeID)
  | some conn => .ok (c.put (recovered now conn))

def forwardedMessages (c : Connector) : List ForwardedMessage := c.forwarded

inductive Call
  | connect (nodeID address : String)
  | disconnect (nodeID : String)
  | forward (nodeID : String) (msg : ForwardedMessage)
  | recordError (nodeID : String)
  | recordSuccess (nodeID : String)
  deriving DecidableEq, Repr

def perform (c : Connector) (now : ℤ) : Call → Except String Connector
  | .connect nodeID address => c.connect now nodeID address
  | .disconnect nodeID => c.disconnect nodeID
  | .forward nodeID msg => c.forwardMessage now nodeID msg
  | .recordError nodeID => c.recordError nodeID
  | .recordSuccess nodeID => c.recordSuccess now nodeID

/-- The table after a call that may have returned an error. -/
def after (c : Connector) (e : ℤ × Call) : Connector :=
  match c.perform e.1 e.2 with
  | .ok c' => c'
  | .error _ => c

def afterAll (c : Connector) (es : List (ℤ × Call)) : Connector := es.foldl after c

/-- The call opens a connection to the node. -/
def Opens (nodeID address : String) (call : Call) : Prop :=
  nodeID ≠ "" ∧ address ≠ "" ∧ call = .connect nodeID address

/-- The call replaces or closes whatever connection to the node there is. -/
def Ends (nodeID : String) (call : Call) : Prop :=
  call = .disconnect nodeID ∨ ∃ address, Opens nodeID address call

/-- The open connection to the node: the calls before it was opened and the calls since then. -/
structure Session (nodeID address : String) (past before since : List Call) : Prop where
  past_eq : past = before++.connect nodeID address::since
  opens : Opens nodeID address (.connect nodeID address)
  lasts : ∀ call ∈ since, ¬Ends nodeID call

def isError (nodeID : String) (call : Call) : Bool := call = .recordError nodeID

/-- A message or a success ends a series of errors. -/
def isUse (nodeID : String) : Call → Bool
  | .forward id _ => id = nodeID
  | .recordSuccess id => id = nodeID
  | _ => false

/-- Three errors in a row, and no recorded success afterwards. -/
def Tripped (nodeID : String) (since : List Call) : Prop :=
  Since (fun calls => 3 ≤ streak (isError nodeID) (isUse nodeID) calls) (· = .recordSuccess nodeID) since

/-- The node can be reached: its connection is open and not tripped. -/
def Up (past : List Call) (nodeID : String) : Prop :=
  ∃ address before since, Session nodeID address past before since ∧ ¬Tripped nodeID since

open Classical in
/-- The messages that were handed over while their node could be reached, with their nodes. -/
noncomputable def delivered (past : List Call) : List Call → List (String × ForwardedMessage)
  | [] => []
  | call::rest => match call with
    | .forward nodeID msg =>
      if Up past nodeID then (nodeID,msg)::delivered (past++[call]) rest else delivered (past++[call]) rest
    | _ => delivered (past++[call]) rest

/-- How many of them went to the node. -/
noncomputable def deliveredTo (nodeID : String) (past calls : List Call) : ℕ :=
  (delivered past calls).countP (fun d => d.1 = nodeID)

variable {c : Connector} {nodeID address : String} {past before since : List Call} {call : Call}

lemma session_snoc : Session nodeID address (past++[call]) before since ↔
    (Opens nodeID address call ∧ before = past ∧ since = []) ∨
    (¬Ends nodeID call ∧ ∃ since', since = since'++[call] ∧ Session nodeID address past before since') := by
  constructor
  · rintro ⟨he,hopens,hlasts⟩
    rcases List.eq_nil_or_concat' since with rfl | ⟨since,d,rfl⟩
    · obtain ⟨rfl,hcall⟩ := List.append_inj' he rfl
      obtain rfl : call = .connect nodeID address := by simpa using hcall
      exact .inl ⟨hopens,rfl,rfl⟩
    · rw [← List.cons_append,← List.append_assoc] at he
      obtain ⟨rfl,hcall⟩ := List.append_inj' he rfl
      obtain rfl : call = d := by simpa using hcall
      refine .inr ⟨hlasts call (by simp),since,rfl,rfl,hopens,fun c hc => ?_⟩
      exact hlasts c (by simp [hc])
  · rintro (⟨hopens,rfl,rfl⟩ | ⟨hcall,since',rfl,rfl,hopens,hlasts⟩)
    · obtain ⟨hnode,haddress,rfl⟩ := hopens
      exact ⟨rfl,⟨hnode,haddress,rfl⟩,by simp⟩
    · refine ⟨by simp,hopens,fun c hc => ?_⟩
      rcases List.mem_append.mp hc with hc | hc
      · exact hlasts c hc
      · rwa [List.mem_singleton.mp hc]

lemma Opens.ends (h : Opens nodeID address call) : Ends nodeID call := .inr ⟨address,h⟩

/-- There is at most one open connection to a node. -/
lemma Session.unique {address' : String} {before' since' : List Call}
    (h : Session nodeID address past before since) (h' : Session nodeID address' past before' since') :
    address = address' ∧ before = before' ∧ since = since' := by
  induction past using List.reverseRecOn generalizing since since' with
  | nil => exact absurd h.past_eq (by simp)
  | append_singleton past call ih =>
    rcases session_snoc.mp h with ⟨⟨-,-,hcall⟩,rfl,rfl⟩ | ⟨hnot,since,rfl,hold⟩
    · rcases session_snoc.mp h' with ⟨⟨-,-,hcall'⟩,rfl,rfl⟩ | ⟨hnot',-⟩
      · rw [hcall] at hcall'
        cases hcall'
        exact ⟨rfl,rfl,rfl⟩
      · exact absurd (.inr ⟨address,h.opens.1,h.opens.2.1,hcall⟩) hnot'
    · rcases session_snoc.mp h' with ⟨hopens,-⟩ | ⟨-,since',rfl,hold'⟩
      · exact absurd hopens.ends hnot
      · obtain ⟨rfl,rfl,rfl⟩ := ih hold hold'
        exact ⟨rfl,rfl,rfl⟩

lemma delivered_append (past calls : List Call) (call : Call) :
    delivered past (calls++[call]) = delivered past calls++delivered (past++calls) [call] := by
  induction calls generalizing past with
  | nil => rw [List.nil_append,List.append_nil,delivered,List.nil_append]
  | cons d calls ih =>
    rw [List.cons_append]
    have hrest := ih (past++[d])
    rw [List.append_assoc,List.singleton_append] at hrest
    cases d with
    | forward id msg =>
      simp only [delivered,hrest]
      split_ifs <;> rfl
    | _ => simp only [delivered,hrest]

/-- What a call does to the entry of a node. -/
def entryAfter (maxErrors : ℕ) (nodeID : String) (e : ℤ × Call) (entry : Option VPSConnection) :
    Option VPSConnection :=
  match e.2 with
  | .connect id address =>
    if id = nodeID ∧ id ≠ "" ∧ address ≠ "" then
      some { nodeID := id, address := address, state := .ready, createdAt := e.1, lastUsed := e.1 }
    else entry
  | .disconnect id => if id = nodeID then none else entry
  | .forward id _ =>
    if id = nodeID then entry.map (fun conn => if conn.state = .ready then used e.1 conn else conn) else entry
  | .recordError id => if id = nodeID then entry.map (failed maxErrors) else entry
  | .recordSuccess id => if id = nodeID then entry.map (recovered e.1) else entry

lemma get_put (c : Connector) (conn : VPSConnection) (k : String) :
    (c.put conn).connections.get k = if k = conn.nodeID then some conn else c.connections.get k :=
  Table.get_set _ _ _ _

/-- Changing the entry of a node that has one. -/
lemma get_put_entry {id : String} {conn conn' : VPSConnection} (h : c.connections.get id = some conn)
    (hid : conn'.nodeID = conn.nodeID) (k : String) :
    (c.put conn').connections.get k = if id = k then some conn' else c.connections.get k := by
  rw [get_put,hid,c.id_eq h]
  by_cases hk : k = id
  · rw [if_pos hk,if_pos hk.symm]
  · rw [if_neg hk,if_neg (fun h => hk h.symm)]

lemma get_after (c : Connector) (e : ℤ × Call) (k : String) :
    (c.after e).connections.get k = entryAfter c.maxErrors k e (c.connections.get k) := by
  obtain ⟨now,call⟩ := e
  cases call with
  | connect id address =>
    simp only [after,perform,connect,entryAfter]
    by_cases hid : id = ""
    · simp [hid]
    · by_cases haddress : address = ""
      · simp [hid,haddress]
      · rw [if_neg hid,if_neg haddress]
        simp only [get_put]
        by_cases hk : k = id
        · rw [if_pos hk,if_pos ⟨hk.symm,hid,haddress⟩]
        · rw [if_neg hk,if_neg (fun h => hk h.1.symm)]
  | disconnect id =>
    simp only [after,perform,disconnect,entryAfter]
    cases hget : c.connections.get id with
    | none =>
      by_cases hk : id = k
      · rw [if_pos hk,← hk,hget]
      · rw [if_neg hk]
    | some conn =>
      simp only [Table.get_erase]
      by_cases hk : id = k
      · rw [if_pos hk,if_pos hk.symm]
      · rw [if_neg hk,if_neg (fun h => hk h.symm)]
  | forward id msg =>
    simp only [after,perform,forwardMessage,entryAfter]
    cases hget : c.connections.get id with
    | none =>
      by_cases hk : id = k
      · rw [if_pos hk,← hk,hget]; rfl
      · rw [if_neg hk]
    | some conn =>
      by_cases hready : conn.state = .ready
      · simp only [hready,ne_eq,not_true_eq_false,if_false]
        change (c.put (used now conn)).connections.get k = _
        rw [get_put_entry hget (show (used now conn).nodeID = conn.nodeID from rfl)]
        by_cases hk : id = k
        · rw [if_pos hk,if_pos hk,← hk,hget,Option.map_some,if_pos hready]
        · rw [if_neg hk,if_neg hk]
      · simp only [hready,ne_eq,not_false_eq_true,if_true]
        by_cases hk : id = k
        · rw [if_pos hk,← hk,hget,Option.map_some,if_neg hready]
        · rw [if_neg hk]
  | recordError id =>
    simp only [after,perform,recordError,entryAfter]
    cases hget : c.connections.get id with
    | none =>
      by_cases hk : id = k
      · rw [if_pos hk,← hk,hget]; rfl
      · rw [if_neg hk]
    | some conn =>
      simp only
      rw [get_put_entry hget (show (failed c.maxErrors conn).nodeID = conn.nodeID from rfl)]
      by_cases hk : id = k
      · rw [if_pos hk,if_pos hk,← hk,hget,Option.map_some]
      · rw [if_neg hk,if_neg hk]
  | recordSuccess id =>
    simp only [after,perform,recordSuccess,entryAfter]
    cases hget : c.connections.get id with
    | none =>
      by_cases hk : id = k
      · rw [if_pos hk,← hk,hget]; rfl
      · rw [if_neg hk]
    | some conn =>
      simp only
      rw [get_put_entry hget (show (recovered now conn).nodeID = conn.nodeID from rfl)]
      by_cases hk : id = k
      · rw [if_pos hk,if_pos hk,← hk,hget,Option.map_some]
      · rw [if_neg hk,if_neg hk]

/-- The threshold stays as it is, and only a message to a ready connection is logged. -/
lemma after_frame (c : Connector) (e : ℤ × Call) : (c.after e).maxErrors = c.maxErrors ∧
    (c.after e).forwarded = c.forwarded++(match e.2 with
      | .forward id msg => if c.isConnected id then [msg] else []
      | _ => []) := by
  obtain ⟨now,call⟩ := e
  cases call with
  | connect id address =>
    simp only [after,perform,connect,List.append_nil]
    split_ifs <;> exact ⟨rfl,rfl⟩
  | forward id msg =>
    cases hget : c.connections.get id with
    | none => simp [after,perform,forwardMessage,isConnected,hget]
    | some conn =>
      by_cases hready : conn.state = .ready
      · simp [after,perform,forwardMessage,isConnected,hget,hready,put,log]
      · simp [after,perform,forwardMessage,isConnected,hget,hready]
  | disconnect id =>
    simp only [after,perform,disconnect,List.append_nil]
    cases c.connections.get id <;> exact ⟨rfl,rfl⟩
  | recordError id =>
    simp only [after,perform,recordError,List.append_nil]
    cases c.connections.get id <;> exact ⟨rfl,rfl⟩
  | recordSuccess id =>
    simp only [after,perform,recordSuccess,List.append_nil]
    cases c.connections.get id <;> exact ⟨rfl,rfl⟩

/-- What holds of the entry of a node: it is the open connection to it, with the messages delivered since it was
opened, and ready unless it was tripped. -/
structure Tracked (nodeID : String) (past : List Call) (conn : VPSConnection) (before since : List Call) :
    Prop where
  session : Session nodeID conn.address past before since
  sent : conn.messagesSent =
    UInt64.ofNat (deliveredTo nodeID (before++[.connect nodeID conn.address]) since)
  health : (conn.state = .ready ∧ conn.errors = streak (isError nodeID) (isUse nodeID) since ∧
      conn.errors < 3 ∧ ¬Tripped nodeID since) ∨
    (conn.state = .unhealthy ∧ 3 ≤ conn.errors ∧ Tripped nodeID since)

lemma tripped_snoc (nodeID : String) (since : List Call) (call : Call) :
    Tripped nodeID (since++[call]) ↔ 3 ≤ streak (isError nodeID) (isUse nodeID) (since++[call]) ∨
      (call ≠ .recordSuccess nodeID ∧ Tripped nodeID since) := since_snoc _ _

lemma Tracked.up_iff {conn : VPSConnection} (h : Tracked nodeID past conn before since) :
    Up past nodeID ↔ conn.state = .ready := by
  rcases h.health with ⟨hstate,-,-,hnot⟩ | ⟨hstate,-,htripped⟩
  · exact ⟨fun _ => hstate,fun _ => ⟨conn.address,before,since,h.session,hnot⟩⟩
  · constructor
    · rintro ⟨address,before',since',hsession,hnot⟩
      obtain ⟨-,-,rfl⟩ := h.session.unique hsession
      exact absurd htripped hnot
    · intro hready
      rw [hstate] at hready
      cases hready

/-- A session goes on with a call that does not end it. -/
lemma Session.snoc (h : Session nodeID address past before since) (hcall : ¬Ends nodeID call) :
    Session nodeID address (past++[call]) before (since++[call]) :=
  session_snoc.mpr (.inr ⟨hcall,since,rfl,h⟩)

/-- A call that neither uses the node nor reports about it. -/
lemma Tracked.other {conn : VPSConnection} (h : Tracked nodeID past conn before since)
    (hcall : ¬Ends nodeID call) (herror : isError nodeID call = false) (huse : isUse nodeID call = false)
    (hsent : deliveredTo nodeID (before++[.connect nodeID conn.address]) (since++[call]) =
      deliveredTo nodeID (before++[.connect nodeID conn.address]) since) :
    Tracked nodeID (past++[call]) conn before (since++[call]) := by
  have hstreak : streak (isError nodeID) (isUse nodeID) (since++[call]) =
      streak (isError nodeID) (isUse nodeID) since := by
    rw [streak_snoc,huse,herror]
    rfl
  have hne : call ≠ .recordSuccess nodeID := by
    rintro rfl
    simp [isUse] at huse
  refine ⟨h.session.snoc hcall,by rw [hsent]; exact h.sent,?_⟩
  rw [tripped_snoc,hstreak]
  rcases h.health with ⟨hstate,herrors,hfew,hnot⟩ | ⟨hstate,hmany,htripped⟩
  · refine .inl ⟨hstate,herrors,hfew,?_⟩
    rintro (hthree | ⟨-,htripped⟩)
    · omega
    · exact hnot htripped
  · exact .inr ⟨hstate,hmany,.inr ⟨hne,htripped⟩⟩

/-- One more call, and the messages it delivers to the node. -/
lemma deliveredTo_snoc (nodeID : String) (past since : List Call) (call : Call) :
    deliveredTo nodeID past (since++[call]) =
      deliveredTo nodeID past since+deliveredTo nodeID (past++since) [call] := by
  rw [deliveredTo,delivered_append,List.countP_append]
  rfl

lemma deliveredTo_up {msg : ForwardedMessage} (h : Up past nodeID) :
    deliveredTo nodeID past [.forward nodeID msg] = 1 := by
  simp [deliveredTo,delivered,h]

lemma deliveredTo_not_up {msg : ForwardedMessage} (h : ¬Up past nodeID) :
    deliveredTo nodeID past [.forward nodeID msg] = 0 := by
  simp [deliveredTo,delivered,h]

lemma deliveredTo_other (h : ∀ msg, call ≠ .forward nodeID msg) : deliveredTo nodeID past [call] = 0 := by
  cases call with
  | forward id msg =>
    have hid : id ≠ nodeID := fun he => h msg (by rw [he])
    simp only [deliveredTo,delivered]
    split_ifs <;> simp [hid]
  | _ => simp [deliveredTo,delivered]

lemma Session.before_append (h : Session nodeID address past before since) :
    before++[.connect nodeID address]++since = past := by
  rw [h.past_eq]
  simp

/-- What holds of the entry of a node, whether there is one or not. -/
def Faithful (nodeID : String) (past : List Call) : Option VPSConnection → Prop
  | none => ∀ address before since, ¬Session nodeID address past before since
  | some conn => ∃ before since, Tracked nodeID past conn before since

/-- A call that is about something else. -/
lemma Faithful.other {entry : Option VPSConnection} (h : Faithful nodeID past entry)
    (hends : ¬Ends nodeID call) (herror : isError nodeID call = false) (huse : isUse nodeID call = false)
    (hforward : ∀ msg, call ≠ .forward nodeID msg) : Faithful nodeID (past++[call]) entry := by
  cases entry with
  | none =>
    intro address before since hsession
    rcases session_snoc.mp hsession with ⟨hopens,-⟩ | ⟨-,since',-,hold⟩
    · exact hends hopens.ends
    · exact h address before since' hold
  | some conn =>
    obtain ⟨before,since,htracked⟩ := h
    refine ⟨before,since++[call],htracked.other hends herror huse ?_⟩
    rw [deliveredTo_snoc,htracked.session.before_append,deliveredTo_other hforward,Nat.add_zero]

/-- Without a connection only a call that opens one makes a difference. -/
lemma Faithful.none (h : Faithful nodeID past none) (hopens : ∀ address, ¬Opens nodeID address call) :
    Faithful nodeID (past++[call]) none := by
  intro address before since hsession
  rcases session_snoc.mp hsession with ⟨hnew,-⟩ | ⟨-,since',-,hold⟩
  · exact hopens address hnew
  · exact h address before since' hold

lemma faithful_connect (now : ℤ) (past : List Call) (hnode : nodeID ≠ "") (haddress : address ≠ "") :
    Faithful nodeID (past++[.connect nodeID address]) (some
      { nodeID := nodeID, address := address, state := .ready, createdAt := now, lastUsed := now }) := by
  refine ⟨past,[],⟨session_snoc.mpr (.inl ⟨⟨hnode,haddress,rfl⟩,rfl,rfl⟩),rfl,.inl ⟨rfl,rfl,?_,?_⟩⟩⟩
  · exact Nat.zero_lt_succ 2
  · rw [Tripped,since_nil]
    simp

/-- A message goes out over a ready connection and ends a series of errors; another one is refused and changes
nothing, not even the series. -/
lemma Tracked.forward {conn : VPSConnection} (h : Tracked nodeID past conn before since) (now : ℤ)
    (msg : ForwardedMessage) :
    Tracked nodeID (past++[.forward nodeID msg]) (if conn.state = .ready then used now conn else conn) before
      (since++[.forward nodeID msg]) := by
  have hends : ¬Ends nodeID (.forward nodeID msg) := by
    rintro (h | ⟨address,-,-,h⟩)
    · cases h
    · cases h
  have hstreak : streak (isError nodeID) (isUse nodeID) (since++[.forward nodeID msg]) = 0 := by
    rw [streak_snoc,show isUse nodeID (.forward nodeID msg) = true from by simp [isUse]]
    rfl
  rcases h.health with ⟨hstate,-,-,hnot⟩ | ⟨hstate,hmany,htripped⟩
  · have hup : Up past nodeID := h.up_iff.mpr hstate
    rw [if_pos hstate]
    refine ⟨h.session.snoc hends,?_,.inl ⟨hstate,hstreak.symm,Nat.zero_lt_succ 2,?_⟩⟩
    · change conn.messagesSent+1 = _
      rw [deliveredTo_snoc,show (used now conn).address = conn.address from rfl,h.session.before_append,
        deliveredTo_up hup,h.sent,UInt64.ofNat_add]
      rfl
    · rw [tripped_snoc,hstreak]
      rintro (hthree | ⟨-,htripped⟩)
      · omega
      · exact hnot htripped
  · have hready : conn.state ≠ .ready := by rw [hstate]; decide
    rw [if_neg hready]
    refine ⟨h.session.snoc hends,?_,.inr ⟨hstate,hmany,(tripped_snoc _ _ _).mpr (.inr ⟨?_,htripped⟩)⟩⟩
    · rw [deliveredTo_snoc,h.session.before_append,deliveredTo_not_up (fun hup => hready (h.up_iff.mp hup)),
        Nat.add_zero]
      exact h.sent
    · exact Call.noConfusion

lemma Tracked.recordError {conn : VPSConnection} (h : Tracked nodeID past conn before since) :
    Tracked nodeID (past++[.recordError nodeID]) (failed 3 conn) before (since++[.recordError nodeID]) := by
  have hends : ¬Ends nodeID (.recordError nodeID) := by
    rintro (h | ⟨address,-,-,h⟩)
    · cases h
    · cases h
  have hstreak : streak (isError nodeID) (isUse nodeID) (since++[.recordError nodeID]) =
      streak (isError nodeID) (isUse nodeID) since+1 := by
    rw [streak_snoc]
    simp [isUse,isError]
  refine ⟨h.session.snoc hends,?_,?_⟩
  · rw [deliveredTo_snoc]
    change conn.messagesSent = _
    rw [deliveredTo_other (fun _ => Call.noConfusion),Nat.add_zero]
    exact h.sent
  · rw [tripped_snoc,hstreak]
    rcases h.health with ⟨hstate,herrors,hfew,hnot⟩ | ⟨hstate,hmany,htripped⟩
    · by_cases hthree : 3 ≤ conn.errors+1
      · refine .inr ⟨if_pos hthree,hthree,.inl ?_⟩
        omega
      · refine .inl ⟨(if_neg hthree).trans hstate,congrArg (·+1) herrors,by simp only [failed]; omega,?_⟩
        rintro (hfull | ⟨-,htripped⟩)
        · omega
        · exact hnot htripped
    · have hthree : 3 ≤ conn.errors+1 := by omega
      exact .inr ⟨if_pos hthree,hthree,.inr ⟨Call.noConfusion,htripped⟩⟩

lemma Tracked.recordSuccess {conn : VPSConnection} (h : Tracked nodeID past conn before since) (now : ℤ) :
    Tracked nodeID (past++[.recordSuccess nodeID]) (recovered now conn) before
      (since++[.recordSuccess nodeID]) := by
  have hends : ¬Ends nodeID (.recordSuccess nodeID) := by
    rintro (h | ⟨address,-,-,h⟩)
    · cases h
    · cases h
  have hstreak : streak (isError nodeID) (isUse nodeID) (since++[.recordSuccess nodeID]) = 0 := by
    rw [streak_snoc,show isUse nodeID (.recordSuccess nodeID) = true from by simp [isUse]]
    rfl
  refine ⟨h.session.snoc hends,?_,.inl ⟨?_,hstreak.symm,Nat.zero_lt_succ 2,?_⟩⟩
  · rw [deliveredTo_snoc]
    change conn.messagesSent = _
    rw [deliveredTo_other (fun _ => Call.noConfusion),Nat.add_zero]
    exact h.sent
  · rcases h.health with ⟨hstate,-⟩ | ⟨hstate,-⟩
    · simp [recovered,hstate]
    · simp [recovered,hstate]
  · rw [tripped_snoc,hstreak]
    rintro (hthree | ⟨hne,-⟩)
    · omega
    · exact hne rfl

/-- What one call keeps. -/
lemma Faithful.step {entry : Option VPSConnection} (h : Faithful nodeID past entry) (e : ℤ × Call) :
    Faithful nodeID (past++[e.2]) (entryAfter 3 nodeID e entry) := by
  obtain ⟨now,call⟩ := e
  cases call with
  | connect id address =>
    simp only [entryAfter]
    split_ifs with hvalid
    · obtain ⟨rfl,hnode,haddress⟩ := hvalid
      exact faithful_connect now past hnode haddress
    · refine h.other ?_ rfl rfl (fun _ => Call.noConfusion)
      rintro (hcall | ⟨address',hnode,haddress,hcall⟩)
      · cases hcall
      · cases hcall
        exact hvalid ⟨rfl,hnode,haddress⟩
  | disconnect id =>
    simp only [entryAfter]
    split_ifs with hid
    · subst hid
      intro address before since hsession
      rcases session_snoc.mp hsession with ⟨⟨-,-,hcall⟩,-⟩ | ⟨hends,-⟩
      · cases hcall
      · exact hends (.inl rfl)
    · refine h.other ?_ rfl rfl (fun _ => Call.noConfusion)
      rintro (hcall | ⟨address',-,-,hcall⟩)
      · cases hcall
        exact hid rfl
      · cases hcall
  | forward id msg =>
    simp only [entryAfter]
    split_ifs with hid
    · subst hid
      cases entry with
      | none => exact h.none (fun address hopens => Call.noConfusion hopens.2.2)
      | some conn =>
        obtain ⟨before,since,htracked⟩ := h
        exact ⟨before,since++[.forward id msg],htracked.forward now msg⟩
    · refine h.other ?_ rfl (by simp [isUse,hid]) (fun msg' hcall => ?_)
      · rintro (hcall | ⟨address',-,-,hcall⟩)
        · cases hcall
        · cases hcall
      · cases hcall
        exact hid rfl
  | recordError id =>
    simp only [entryAfter]
    split_ifs with hid
    · subst hid
      cases entry with
      | none => exact h.none (fun address hopens => Call.noConfusion hopens.2.2)
      | some conn =>
        obtain ⟨before,since,htracked⟩ := h
        exact ⟨before,since++[.recordError id],htracked.recordError⟩
    · refine h.other ?_ (by simp [isError,hid]) rfl (fun _ => Call.noConfusion)
      rintro (hcall | ⟨address',-,-,hcall⟩)
      · cases hcall
      · cases hcall
  | recordSuccess id =>
    simp only [entryAfter]
    split_ifs with hid
    · subst hid
      cases entry with
      | none => exact h.none (fun address hopens => Call.noConfusion hopens.2.2)
      | some conn =>
        obtain ⟨before,since,htracked⟩ := h
        exact ⟨before,since++[.recordSuccess id],htracked.recordSuccess now⟩
    · refine h.other ?_ rfl (by simp [isUse,hid]) (fun _ => Call.noConfusion)
      rintro (hcall | ⟨address',-,-,hcall⟩)
      · cases hcall
      · cases hcall

lemma Faithful.isConnected_iff (h : Faithful nodeID past (c.connections.get nodeID)) :
    c.isConnected nodeID = true ↔ Up past nodeID := by
  unfold isConnected
  cases hget : c.connections.get nodeID with
  | none =>
    rw [hget] at h
    constructor
    · simp
    · rintro ⟨address,before,since,hsession,-⟩
      exact absurd hsession (h address before since)
  | some conn =>
    rw [hget] at h
    obtain ⟨before,since,htracked⟩ := h
    rw [htracked.up_iff]
    simp

/-- After any run the entries are faithful and the log holds what was delivered. -/
lemma faithful_afterAll (es : List (ℤ × Call)) : (new.afterAll es).maxErrors = 3 ∧
    (∀ nodeID, Faithful nodeID (es.map Prod.snd) ((new.afterAll es).connections.get nodeID)) ∧
    (new.afterAll es).forwarded = (delivered [] (es.map Prod.snd)).map Prod.snd := by
  induction es using List.reverseRecOn with
  | nil =>
    refine ⟨rfl,fun nodeID address before since hsession => ?_,rfl⟩
    exact absurd hsession.past_eq (by simp)
  | append_singleton es e ih =>
    obtain ⟨hmax,hentries,hlog⟩ := ih
    have hlast : new.afterAll (es++[e]) = (new.afterAll es).after e := by
      rw [afterAll,List.foldl_append]
      rfl
    obtain ⟨hmax',hlog'⟩ := (new.afterAll es).after_frame e
    rw [hlast,List.map_append,List.map_singleton]
    refine ⟨hmax'.trans hmax,fun nodeID => ?_,?_⟩
    · rw [get_after,hmax]
      exact (hentries nodeID).step e
    · rw [hlog',hlog,delivered_append,List.map_append,List.nil_append]
      congr 1
      obtain ⟨now,call⟩ := e
      cases call with
      | forward id msg =>
        have hiff := (hentries id).isConnected_iff
        by_cases hup : Up (es.map Prod.snd) id
        · simp [delivered,hup,hiff.mpr hup]
        · have hdown : (new.afterAll es).isConnected id = false := by
            rw [← Bool.not_eq_true,hiff]
            exact hup
          simp [delivered,hup,hdown]
      | _ => rfl

/-- After every series of calls a node is reported as connected exactly if the connection opened last was neither
closed nor tripped, the log holds exactly the messages handed over while their node could be reached, and the
entry of an open connection counts its own. -/
theorem connector_correct (es : List (ℤ × Call)) (nodeID : String) :
    ((new.afterAll es).isConnected nodeID = true ↔ Up (es.map Prod.snd) nodeID) ∧
    (new.afterAll es).forwardedMessages = (delivered [] (es.map Prod.snd)).map Prod.snd ∧
    ((∃ conn, (new.afterAll es).getConnection nodeID = .ok conn) ↔
      ∃ address before since, Session nodeID address (es.map Prod.snd) before since) ∧
    ∀ address before since, Session nodeID address (es.map Prod.snd) before since →
      ∃ conn, (new.afterAll es).getConnection nodeID = .ok conn ∧ conn.nodeID = nodeID ∧
        conn.address = address ∧
        conn.messagesSent = UInt64.ofNat (deliveredTo nodeID (before++[.connect nodeID address]) since) ∧
        ((conn.state = .ready ∧ conn.errors < 3 ∧ ¬Tripped nodeID since) ∨
          (conn.state = .unhealthy ∧ 3 ≤ conn.errors ∧ Tripped nodeID since)) := by
  obtain ⟨-,hentries,hlog⟩ := faithful_afterAll es
  have hentry := hentries nodeID
  refine ⟨hentry.isConnected_iff,hlog,?_,?_⟩
  · unfold getConnection
    cases hget : (new.afterAll es).connections.get nodeID with
    | none =>
      rw [hget] at hentry
      constructor
      · rintro ⟨conn,hconn⟩
        cases hconn
      · rintro ⟨address,before,since,hsession⟩
        exact absurd hsession (hentry address before since)
    | some conn =>
      rw [hget] at hentry
      obtain ⟨before,since,htracked⟩ := hentry
      exact ⟨fun _ => ⟨conn.address,before,since,htracked.session⟩,fun _ => ⟨conn,rfl⟩⟩
  · intro address before since hsession
    cases hget : (new.afterAll es).connections.get nodeID with
    | none =>
      rw [hget] at hentry
      exact absurd hsession (hentry address before since)
    | some conn =>
      rw [hget] at hentry
      obtain ⟨before',since',htracked⟩ := hentry
      obtain ⟨rfl,rfl,rfl⟩ := hsession.unique htracked.session
      refine ⟨conn,by simp only [getConnection,hget],(new.afterAll es).id_eq hget,rfl,htracked.sent,?_⟩
      rcases htracked.health with ⟨hstate,-,hfew,hnot⟩ | hunhealthy
      · exact .inl ⟨hstate,hfew,hnot⟩
      · exact .inr hunhealthy

end Connector
end HiveKernel
