import HiveKernel.Sdk.Syscalls

/-! Every syscall of a task is matched to the coroutine that waits for it, in every run over its Execute stream. -/
namespace HiveKernel
open Lib

namespace SyscallStream
variable {κ Q R : Type} {h : SyscallHandlers κ Q R} {s t : SyscallStream κ Q R} {op : StreamStep Q}

/-- The identifiers of the results that were read. -/
def readIDs (s : SyscallStream κ Q R) : List String := s.read.map CallResult.callID

/-- A call stands in the table as long as its result has not been read; a future holds only the result of
its own call. -/
structure Paired (s : SyscallStream κ Q R) : Prop where
  issued : ∀ i call, s.calls.get i = some call → call.callID ∈ s.issued
  distinct : ∀ i j c d, s.calls.get i = some c → s.calls.get j = some d → c.callID = d.callID → i = j
  put : ∀ call ∈ s.put, ∃ i, s.calls.get i = some call
  nodup : (s.put.map SystemCall.callID).Nodup
  known : ∀ i call, s.calls.get i = some call → (s.futures.get i).isSome
  pending : ∀ id i, s.pending.get id = some i →
    ∃ call, s.calls.get i = some call ∧ call.callID = id ∧ id ∉ s.readIDs
  awaited : ∀ i call, s.calls.get i = some call → call.callID ∉ s.readIDs →
    s.pending.get call.callID = some i ∧ (s.futures.get i = some .waiting ∨ s.futures.get i = some .cancelled)
  settled : ∀ i call, s.calls.get i = some call → call.callID ∈ s.readIDs → s.futures.get i ≠ some .waiting
  held : ∀ i result, s.futures.get i = some (.resolved result) ∨ s.futures.get i = some (.resumed result) →
    (i,result) ∈ s.applied
  applied : ∀ a ∈ s.applied, a.2 ∈ s.read ∧ (∃ call, s.calls.get a.1 = some call ∧ a.2.callID = call.callID) ∧
    s.futures.get a.1 ≠ some .waiting
  coroutines : (s.applied.map Prod.fst).Nodup
  results : (s.applied.map (fun a => a.2.callID)).Nodup

lemma paired_start (kernel : κ) : Paired (start kernel : SyscallStream κ Q R) := by
  constructor <;> simp [start]

/-- A new call. -/
lemma Paired.call (hs : Paired s) {i : ℕ} {call : SystemCall Q} (hi : s.calls.get i = none)
    (hid : call.callID ∉ s.issued) (hread : call.callID ∉ s.readIDs) : Paired (s.doSyscall i call) := by
  have hcalls : ∀ j, j ≠ i → (s.calls.set i call).get j = s.calls.get j := fun j hj => Table.get_set_of_ne hj
  have hnew : ∀ j c, s.calls.get j = some c → j ≠ i ∧ c.callID ≠ call.callID := by
    intro j c hj
    refine ⟨?_,fun hsame => hid (hsame ▸ hs.issued j c hj)⟩
    rintro rfl
    rw [hi] at hj
    cases hj
  have hkept : ∀ j c, s.calls.get j = some c → (s.calls.set i call).get j = some c := by
    intro j c hj
    rw [hcalls j (hnew j c hj).1,hj]
  refine ⟨fun j c hj => ?_,fun j k c d hj hk hcd => ?_,fun c hc => ?_,?_,fun j c hj => ?_,fun id j hj => ?_,
    fun j c hj hc => ?_,fun j c hj hc => ?_,fun j result hj => ?_,fun a ha => ?_,hs.coroutines,hs.results⟩
  · rcases Table.get_set_some hj with ⟨-,rfl⟩ | ⟨-,hj⟩
    · exact List.mem_cons_self
    · exact List.mem_cons_of_mem _ (hs.issued j c hj)
  · rcases Table.get_set_some hj with ⟨hji,hc⟩ | ⟨-,hj'⟩
    · rcases Table.get_set_some hk with ⟨hki,-⟩ | ⟨-,hk'⟩
      · exact hji.trans hki.symm
      · exact absurd (hcd.symm.trans (congrArg SystemCall.callID hc)) (hnew k d hk').2
    · rcases Table.get_set_some hk with ⟨-,hd⟩ | ⟨-,hk'⟩
      · exact absurd (hcd.trans (congrArg SystemCall.callID hd)) (hnew j c hj').2
      · exact hs.distinct j k c d hj' hk' hcd
  · have hmem : c ∈ s.put ∨ c = call := by
      by_cases hdone : s.taskDone = true
      · exact .inl (by simpa [doSyscall,hdone] using hc)
      · simpa [doSyscall,hdone] using hc
    rcases hmem with hc | rfl
    · obtain ⟨j,hj⟩ := hs.put c hc
      exact ⟨j,hkept j c hj⟩
    · exact ⟨i,Table.get_set_self _ _ _⟩
  · by_cases hdone : s.taskDone = true
    · simpa [doSyscall,hdone] using hs.nodup
    · have hput : (s.doSyscall i call).put = s.put++[call] := by simp [doSyscall,hdone]
      rw [hput,List.map_append,List.nodup_append]
      refine ⟨hs.nodup,List.nodup_singleton _,fun a ha b hb hab => ?_⟩
      obtain ⟨c,hc,rfl⟩ := List.mem_map.mp ha
      obtain rfl : b = call.callID := by simpa using hb
      obtain ⟨j,hj⟩ := hs.put c hc
      exact (hnew j c hj).2 hab
  · rcases Table.get_set_some hj with ⟨rfl,-⟩ | ⟨-,hj⟩
    · simp [doSyscall]
    · exact Table.isSome_get_set i _ (hs.known j c hj)
  · rcases Table.get_set_some hj with ⟨rfl,rfl⟩ | ⟨-,hj⟩
    · exact ⟨call,Table.get_set_self _ _ _,rfl,hread⟩
    · obtain ⟨c,hc,hcid,hopen⟩ := hs.pending id j hj
      exact ⟨c,hkept j c hc,hcid,hopen⟩
  · rcases Table.get_set_some hj with ⟨rfl,rfl⟩ | ⟨hji,hj⟩
    · exact ⟨Table.get_set_self _ _ _,.inl (Table.get_set_self _ _ _)⟩
    · obtain ⟨hpending,hfuture⟩ := hs.awaited j c hj hc
      have hfutures : (s.futures.set i .waiting).get j = s.futures.get j := Table.get_set_of_ne hji
      refine ⟨?_,?_⟩
      · change (s.pending.set call.callID i).get c.callID = some j
        rw [Table.get_set_of_ne (hnew j c hj).2,hpending]
      · change (s.futures.set i .waiting).get j = _ ∨ (s.futures.set i .waiting).get j = _
        rw [hfutures]
        exact hfuture
  · rcases Table.get_set_some hj with ⟨rfl,rfl⟩ | ⟨hji,hj⟩
    · exact absurd hc hread
    · change (s.futures.set i .waiting).get j ≠ _
      rw [Table.get_set_of_ne hji]
      exact hs.settled j c hj hc
  · have hji : j ≠ i := by
      rintro rfl
      simp [doSyscall] at hj
    change (s.futures.set i .waiting).get j = _ ∨ (s.futures.set i .waiting).get j = _ at hj
    rw [Table.get_set_of_ne hji] at hj
    exact hs.held j result hj
  · obtain ⟨hmem,⟨c,hc,hcid⟩,hfuture⟩ := hs.applied a ha
    refine ⟨hmem,⟨c,hkept a.1 c hc,hcid⟩,?_⟩
    change (s.futures.set i .waiting).get a.1 ≠ _
    rw [Table.get_set_of_ne (hnew a.1 c hc).1]
    exact hfuture

/-- A coroutine is done with waiting: it was cancelled, or has been given a result. -/
lemma Paired.setFuture (hs : Paired s) {i : ℕ} {future : SyscallFuture R} (hwaiting : future ≠ .waiting)
    (hopen : ∀ call, s.calls.get i = some call → call.callID ∉ s.readIDs → future = .cancelled)
    (hheld : ∀ result, future = .resolved result ∨ future = .resumed result → (i,result) ∈ s.applied) :
    Paired { s with futures := s.futures.set i future } := by
  have hothers : ∀ j, j ≠ i → (s.futures.set i future).get j = s.futures.get j := fun j hj => Table.get_set_of_ne hj
  have hself : (s.futures.set i future).get i = some future := Table.get_set_self _ _ _
  have hnew : some future ≠ some .waiting := fun hsame => hwaiting (Option.some.inj hsame)
  refine ⟨hs.issued,hs.distinct,hs.put,hs.nodup,fun j c hj => ?_,hs.pending,fun j c hj hc => ?_,fun j c hj hc => ?_,
    fun j result hj => ?_,fun a ha => ?_,hs.coroutines,hs.results⟩
  · exact Table.isSome_get_set i _ (hs.known j c hj)
  · obtain ⟨hpending,hfuture⟩ := hs.awaited j c hj hc
    refine ⟨hpending,?_⟩
    by_cases hji : j = i
    · subst hji
      exact .inr (hself.trans (congrArg some (hopen c hj hc)))
    · rwa [hothers j hji]
  · by_cases hji : j = i
    · rwa [hji,hself]
    · rw [hothers j hji]
      exact hs.settled j c hj hc
  · by_cases hji : j = i
    · rw [hji,hself,Option.some.injEq,Option.some.injEq] at hj
      exact hji ▸ hheld result hj
    · rw [hothers j hji] at hj
      exact hs.held j result hj
  · obtain ⟨hmem,hcall,hfuture⟩ := hs.applied a ha
    refine ⟨hmem,hcall,?_⟩
    by_cases hai : a.1 = i
    · rwa [hai,hself]
    · rwa [hothers a.1 hai]

/-- A coroutine is cancelled before it goes on. -/
lemma Paired.cancel (hs : Paired s) (i : ℕ) : Paired { s with futures := s.futures.set i .cancelled } :=
  hs.setFuture (by simp) (fun _ _ _ => rfl) (by simp)

/-- A coroutine goes on with its result. -/
lemma Paired.resume (hs : Paired s) {i : ℕ} {result : CallResult R} (hi : s.futures.get i = some (.resolved result)) :
    Paired { s with futures := s.futures.set i (.resumed result) } := by
  refine hs.setFuture (by simp) (fun call hcall hopen => ?_) (fun result' hresult => ?_)
  · obtain ⟨-,hfuture⟩ := hs.awaited i call hcall hopen
    rw [hi] at hfuture
    simp at hfuture
  · obtain rfl : result = result' := by simpa using hresult
    exact hs.held i result (.inl hi)

/-- The reader hands a result over. -/
lemma Paired.read (hs : Paired s) {result : CallResult R} {rest : List (CallResult R)} {i : ℕ} {call : SystemCall Q}
    (hi : s.calls.get i = some call) (hid : call.callID = result.callID) (hnew : result.callID ∉ s.readIDs) :
    Paired (resolveSyscall { s with toAgent := rest, read := s.read++[result] } result) := by
  obtain ⟨hpending,hfuture⟩ := hs.awaited i call hi (hid ▸ hnew)
  rw [hid] at hpending
  have hids : (s.read++[result]).map CallResult.callID = s.readIDs++[result.callID] := by simp [readIDs]
  have hopen : ∀ id, id ∉ (s.read++[result]).map CallResult.callID → id ∉ s.readIDs ∧ id ≠ result.callID := by
    intro id hnot
    rw [hids] at hnot
    simpa using hnot
  have hpending' : ∀ id j, (s.pending.erase result.callID).get id = some j →
      ∃ c, s.calls.get j = some c ∧ c.callID = id ∧ id ∉ (s.read++[result]).map CallResult.callID := by
    intro id j hj
    obtain ⟨hne,hj⟩ := Table.get_erase_some hj
    obtain ⟨c,hc,hcid,hnot⟩ := hs.pending id j hj
    refine ⟨c,hc,hcid,?_⟩
    rw [hids]
    simp [hnot,hne]
  have hnotWaiting : ∀ j c, s.calls.get j = some c → c.callID ∈ (s.read++[result]).map CallResult.callID → j ≠ i →
      s.futures.get j ≠ some .waiting := by
    intro j c hj hc hji
    rw [hids] at hc
    rcases List.mem_append.mp hc with hc | hc
    · exact hs.settled j c hj hc
    · exact absurd (hs.distinct j i c call hj hi ((List.mem_singleton.mp hc).trans hid.symm)) hji
  have hother : ∀ j c, s.calls.get j = some c → c.callID ∉ (s.read++[result]).map CallResult.callID → j ≠ i := by
    rintro j c hj hc rfl
    obtain rfl := Option.some.inj (hi.symm.trans hj)
    exact (hopen _ hc).2 hid
  have hawaited : ∀ j c, s.calls.get j = some c → c.callID ∉ (s.read++[result]).map CallResult.callID →
      (s.pending.erase result.callID).get c.callID = some j ∧
        (s.futures.get j = some .waiting ∨ s.futures.get j = some .cancelled) := by
    intro j c hj hc
    obtain ⟨hnot,hne⟩ := hopen _ hc
    obtain ⟨hp,hf⟩ := hs.awaited j c hj hnot
    exact ⟨by rw [Table.get_erase_of_ne hne,hp],hf⟩
  unfold resolveSyscall setResult
  simp only [hpending]
  rcases hfuture with hfuture | hfuture
  · simp only [hfuture]
    have hset : ∀ j, j ≠ i → (s.futures.set i (.resolved result)).get j = s.futures.get j :=
      fun j hj => Table.get_set_of_ne hj
    have hself : (s.futures.set i (.resolved result)).get i = some (.resolved result) := Table.get_set_self _ _ _
    have hfresh : ∀ a ∈ s.applied, a.1 ≠ i ∧ a.2.callID ≠ result.callID := by
      intro a ha
      obtain ⟨hmem,-,hf⟩ := hs.applied a ha
      refine ⟨fun hsame => ?_,fun hsame => hnew (hsame ▸ List.mem_map_of_mem hmem)⟩
      rw [hsame] at hf
      exact hf hfuture
    refine ⟨hs.issued,hs.distinct,hs.put,hs.nodup,fun j c hj => ?_,hpending',fun j c hj hc => ?_,fun j c hj hc => ?_,
      fun j result' hj => ?_,fun a ha => ?_,?_,?_⟩
    · exact Table.isSome_get_set i _ (hs.known j c hj)
    · obtain ⟨hp,hf⟩ := hawaited j c hj hc
      exact ⟨hp,by rwa [hset j (hother j c hj hc)]⟩
    · by_cases hji : j = i
      · rw [hji,hself]
        simp
      · rw [hset j hji]
        exact hnotWaiting j c hj hc hji
    · by_cases hji : j = i
      · rw [hji,hself] at hj
        obtain rfl : result = result' := by simpa using hj
        exact List.mem_append_right _ (hji ▸ List.mem_cons_self)
      · rw [hset j hji] at hj
        exact List.mem_append_left _ (hs.held j result' hj)
    · rcases List.mem_append.mp ha with ha | ha
      · obtain ⟨hmem,hcall,hf⟩ := hs.applied a ha
        exact ⟨List.mem_append_left _ hmem,hcall,by rwa [hset a.1 (hfresh a ha).1]⟩
      · obtain rfl := List.mem_singleton.mp ha
        exact ⟨List.mem_append_right _ List.mem_cons_self,⟨call,hi,hid.symm⟩,by rw [hself]; simp⟩
    · rw [List.map_append,List.nodup_append]
      refine ⟨hs.coroutines,List.nodup_singleton _,fun x hx y hy hxy => ?_⟩
      obtain ⟨a,ha,rfl⟩ := List.mem_map.mp hx
      exact (hfresh a ha).1 (hxy.trans (by simpa using hy))
    · rw [List.map_append,List.nodup_append]
      refine ⟨hs.results,List.nodup_singleton _,fun x hx y hy hxy => ?_⟩
      obtain ⟨a,ha,rfl⟩ := List.mem_map.mp hx
      exact (hfresh a ha).2 (hxy.trans (by simpa using hy))
  · simp only [hfuture]
    refine ⟨hs.issued,hs.distinct,hs.put,hs.nodup,hs.known,hpending',hawaited,fun j c hj hc => ?_,hs.held,
      fun a ha => ?_,hs.coroutines,hs.results⟩
    · by_cases hji : j = i
      · rw [hji,hfuture]
        simp
      · exact hnotWaiting j c hj hc hji
    · obtain ⟨hmem,hcall,hf⟩ := hs.applied a ha
      exact ⟨List.mem_append_left _ hmem,hcall,hf⟩

lemma Flow.mem_put (hs : Flow s) {d : SystemCall Q × CallResult R} (hd : d ∈ s.dispatched) : d.1 ∈ s.put :=
  hs.dispatched_isPrefix.subset (List.mem_map_of_mem hd)

/-- A result on its way to the agent, or read there, comes from a dispatched call. -/
lemma Flow.dispatched_of_sent (hs : Flow s) {result : CallResult R} (hresult : result ∈ s.read++s.toAgent) :
    ∃ call, (call,result) ∈ s.dispatched ∧ result.callID = call.callID := by
  rw [← hs.stream] at hresult
  obtain ⟨⟨call,r⟩,hd,rfl⟩ := List.mem_map.mp (hs.sent_isPrefix.subset hresult)
  exact ⟨call,hd,hs.ids _ hd⟩

/-- No two results bear the same identifier. -/
lemma Flow.nodup_results (hs : Flow s) (hp : Paired s) :
    ((s.read++s.toAgent).map CallResult.callID).Nodup := by
  have hcalls : ((s.dispatched.map Prod.fst).map SystemCall.callID).Nodup :=
    (hs.dispatched_isPrefix.sublist.map SystemCall.callID).nodup hp.nodup
  have hsame : (s.dispatched.map Prod.snd).map CallResult.callID =
      (s.dispatched.map Prod.fst).map SystemCall.callID := by
    rw [List.map_map,List.map_map]
    exact List.map_congr_left (fun d hd => hs.ids d hd)
  rw [← hsame] at hcalls
  rw [← hs.stream]
  exact (hs.sent_isPrefix.sublist.map CallResult.callID).nodup hcalls

lemma Paired.move (hp : Paired s) (hs : Flow s) (hmove : Move h s op t) : Paired t := by
  cases hmove with
  | call hi hid =>
    apply hp.call hi hid
    intro hread
    obtain ⟨result,hresult,hsame⟩ := List.mem_map.mp hread
    obtain ⟨call,hcall,hcallID⟩ := hs.dispatched_of_sent (List.mem_append_left _ hresult)
    obtain ⟨j,hj⟩ := hp.put call (hs.mem_put hcall)
    have hissued := hp.issued j call hj
    rw [← hcallID,hsame] at hissued
    exact hid hissued
  | cancel hi => exact hp.cancel _
  | resume hi => exact hp.resume hi
  | @read result rest hreader hstream =>
    have hmem : result ∈ s.read++s.toAgent := by simp [hstream]
    obtain ⟨call,hcall,hcallID⟩ := hs.dispatched_of_sent hmem
    obtain ⟨i,hi⟩ := hp.put call (hs.mem_put hcall)
    apply hp.read hi hcallID.symm
    intro hread
    have hnodup := hs.nodup_results hp
    rw [hstream,List.map_append,List.nodup_append] at hnodup
    exact hnodup.2.2 _ hread _ (List.mem_map_of_mem List.mem_cons_self) rfl
  | report | finish | write | stop | cancelReader | receive | handled | handle | send =>
    exact ⟨hp.issued,hp.distinct,hp.put,hp.nodup,hp.known,hp.pending,hp.awaited,hp.settled,hp.held,hp.applied,
      hp.coroutines,hp.results⟩

lemma flow_of_run {kernel : κ} {trace : List (Transition (SyscallStream κ Q R) (StreamStep Q))}
    (run : Run (step h) (start kernel) trace t) : Flow t ∧ Paired t := by
  have hkept : ∀ s op t, Flow s ∧ Paired s → step h s op = some t → Flow t ∧ Paired t := by
    rintro s op t ⟨hs,hp⟩ hstep
    have hmove := move_of_step hstep
    exact ⟨hs.move hmove,hp.move hs hmove⟩
  exact (run.invariant hkept ⟨flow_start kernel,paired_start kernel⟩).2

lemma Flow.matched (hs : Flow s) (hp : Paired s) : Matched s := by
  refine ⟨hp.nodup,hs.dispatched_isPrefix,hs.ids,hs.sent_isPrefix,fun i result hi => ?_,hp.coroutines,hp.results⟩
  obtain ⟨hread,⟨call,hcall,hsame⟩,-⟩ := hp.applied (i,result) (hp.held i result (.inr hi))
  obtain ⟨call',hdispatched,hcallID⟩ := hs.dispatched_of_sent (List.mem_append_left _ hread)
  obtain ⟨j,hj⟩ := hp.put call' (hs.mem_put hdispatched)
  obtain rfl := hp.distinct i j call call' hcall hj (hsame.symm.trans hcallID)
  obtain rfl := Option.some.inj (hcall.symm.trans hj)
  exact ⟨call,hcall,hdispatched⟩

lemma Settled.executor (hsettled : Settled h s) : s.executor = .receiving ∨ s.Returned := by
  cases hexecutor : s.executor with
  | receiving => exact .inl rfl
  | dispatching calls =>
    have hhandle := hsettled .handle trivial
    cases calls <;> simp [step,hexecutor] at hhandle
  | sending result calls =>
    have hsend := hsettled .send trivial
    simp [step,hexecutor] at hsend
  | returned exit => exact .inr ⟨exit,hexecutor⟩

lemma Settled.dispatched (hsettled : Settled h s) (hs : Flow s) : s.dispatched.map Prod.fst = s.put := by
  by_cases hreturned : s.Returned
  · exact (hs.returned hreturned).symm
  · have hexecutor := hsettled.executor.resolve_right hreturned
    have htoKernel : s.toKernel = [] := by
      have hreceive := hsettled .receive trivial
      cases hstream : s.toKernel with
      | nil => rfl
      | cons progress rest => simp [step,hexecutor,hstream] at hreceive
    have hwriter : s.writerDone = false := by
      by_contra hdone
      have hfinal := hs.written (by simpa using hdone) hreturned
      rw [htoKernel] at hfinal
      cases hfinal
    have hqueue : s.queue = [] := by
      have hwrite := hsettled .write trivial
      cases hqueue : s.queue with
      | nil => rfl
      | cons item rest => cases item <;> simp [step,hwriter,hqueue] at hwrite
    have horder := hs.order hreturned
    rw [hexecutor,line,htoKernel,hqueue] at horder
    simpa [taken,waitingCalls] using horder.symm

lemma Settled.sent (hsettled : Settled h s) (hs : Flow s) : s.sent = s.dispatched.map Prod.snd := by
  have hunsent : unsent s.executor = [] := by
    rcases hsettled.executor with hexecutor | ⟨exit,hexecutor⟩ <;> rw [hexecutor] <;> rfl
  rw [hs.results,hunsent,List.append_nil]

lemma Settled.done_of_read (hsettled : Settled h s) (hp : Paired s) {i : ℕ} {call : SystemCall Q}
    (hi : s.calls.get i = some call) (hread : call.callID ∈ s.readIDs) : s.Done i := by
  cases hfuture : s.futures.get i with
  | none =>
    have hknown := hp.known i call hi
    rw [hfuture] at hknown
    cases hknown
  | some future =>
    cases future with
    | waiting => exact absurd hfuture (hp.settled i call hi hread)
    | resolved result =>
      have hresume := hsettled (.resume i) trivial
      simp [step,hfuture] at hresume
    | resumed result => exact .inr ⟨result,hfuture⟩
    | cancelled => exact .inl hfuture

lemma Settled.served (hsettled : Settled h s) (hs : Flow s) (hp : Paired s) : Served s := by
  refine ⟨hsettled.dispatched hs,hsettled.sent hs,fun i call hi hread => hsettled.done_of_read hp hi hread,
    fun hreader i call hi hput => hsettled.done_of_read hp hi ?_⟩
  have htoAgent : s.toAgent = [] := by
    have hread := hsettled .read trivial
    cases hstream : s.toAgent with
    | nil => rfl
    | cons result rest => simp [step,hreader,hstream] at hread
  rw [← hsettled.dispatched hs] at hput
  obtain ⟨⟨c,result⟩,hd,rfl⟩ := List.mem_map.mp hput
  have hresult : result ∈ s.dispatched.map Prod.snd := List.mem_map_of_mem hd
  rw [← hsettled.sent hs,hs.stream,htoAgent,List.append_nil] at hresult
  exact List.mem_map.mpr ⟨result,hresult,hs.ids _ hd⟩

def progressWork : TaskProgress Q → ℕ
  | .syscall calls => 4*calls.length+2
  | _ => 1

def itemWork : Option (TaskProgress Q) → ℕ
  | none => 1
  | some progress => progressWork progress+1

def executorWork : ExecutorStage Q R → ℕ
  | .dispatching calls => 4*calls.length+1
  | .sending _ calls => 4*calls.length+4
  | _ => 0

def futureWork : SyscallFuture R → ℕ
  | .resolved _ => 1
  | _ => 0

/-- How many steps the machinery can take at most. -/
def work (s : SyscallStream κ Q R) : ℕ :=
  (s.queue.map itemWork).sum+(s.toKernel.map progressWork).sum+executorWork s.executor+2*s.toAgent.length+
    s.futures.sum (fun _ future => futureWork future)+if s.readerCancelled then 0 else 1

lemma executorWork_received (progress : TaskProgress Q) :
    executorWork (received progress : ExecutorStage Q R) < progressWork progress := by
  cases progress <;> simp [received,executorWork,progressWork]

/-- Handing a result over adds the resumption of one coroutine at most. -/
lemma work_resolveSyscall (s : SyscallStream κ Q R) (result : CallResult R) :
    (resolveSyscall s result).work ≤ s.work+1 := by
  unfold resolveSyscall
  split
  · omega
  next i hi =>
    unfold setResult
    split
    next hwaiting =>
      have hsum := Table.sum_set_of_some s.futures hwaiting (.resolved result) (fun _ future => futureWork future)
      simp only [work,futureWork] at hsum ⊢
      omega
    · simp [work]

lemma Move.work_lt (hmove : Move h s op t) (hop : Machinery op) : t.work < s.work := by
  cases hmove with
  | call => cases hop
  | cancel => cases hop
  | report => cases hop
  | finish hnot => exact absurd hop hnot
  | write hwriter hqueue =>
    simp only [work,hqueue,List.map_cons,List.sum_cons,List.map_append,List.sum_append,List.map_nil,List.sum_nil,
      itemWork]
    omega
  | stop hqueue =>
    simp only [work,hqueue,List.map_cons,List.sum_cons,itemWork]
    omega
  | cancelReader hreader =>
    simp only [work,hreader,if_true,Bool.false_eq_true,if_false]
    omega
  | @receive progress rest hexecutor hstream =>
    have hreceived := executorWork_received (R := R) progress
    simp only [work,hexecutor,hstream,List.map_cons,List.sum_cons,executorWork] at hreceived ⊢
    omega
  | handled hexecutor =>
    simp only [work,hexecutor,executorWork,List.length_nil]
    omega
  | handle hexecutor =>
    simp only [work,hexecutor,executorWork,List.length_cons]
    omega
  | send hexecutor =>
    simp only [work,hexecutor,executorWork,List.length_append,List.length_singleton]
    omega
  | @read result rest hreader hstream =>
    have hresolve := work_resolveSyscall { s with toAgent := rest, read := s.read++[result] } result
    simp only [work,hstream,List.length_cons] at hresolve ⊢
    omega
  | @resume i result hi =>
    have hsum := Table.sum_set_of_some s.futures hi (.resumed result) (fun _ future => futureWork future)
    simp only [work,futureWork] at hsum ⊢
    omega

/-- Calls of one context with distinct identifiers are matched to their coroutines in every run. Left to
themselves the writer, the executor, the reader and the coroutines come to rest, and then all calls from
before the final result are served. -/
theorem matched_of_run {kernel : κ} {trace : List (Transition (SyscallStream κ Q R) (StreamStep Q))}
    (run : Run (step h) (start kernel) trace t) :
    Matched t ∧
    (∃ n, ∀ later u, Run (step h) t later u → (∀ e ∈ later, Machinery e.label) → later.length ≤ n) ∧
    (Settled h t → Served t) := by
  obtain ⟨hs,hp⟩ := flow_of_run run
  refine ⟨hs.matched hp,⟨t.work,fun later u hlater hall => ?_⟩,fun hsettled => hsettled.served hs hp⟩
  have hlength := hlater.length_add_le work (fun s op t hop hstep => (move_of_step hstep).work_lt hop) hall
  omega

/-- A kernel that counts the calls and answers with their number. -/
def counting : SyscallHandlers ℕ Unit ℕ where
  spawn n _ := (n,n+1)
  kill n _ := (n,n+1)
  send n _ := (n,n+1)
  store n _ := (n,n+1)
  getArtifact n _ := (n,n+1)
  escalate n _ := (n,n+1)
  log n _ := (n,n+1)
  executeOn n _ := (n,n+1)
  waitChild n _ := (n,n+1)
  listSiblings n := (n,n+1)

/-- Nothing is under way in a state without messages, where the executor waits, the writer runs and no
coroutine has a result it has not gone on with. -/
lemma settled_of_idle (hexecutor : s.executor = .receiving) (htoKernel : s.toKernel = []) (hqueue : s.queue = [])
    (htoAgent : s.toAgent = []) (hwriter : s.writerDone = false)
    (hfutures : ∀ i result, s.futures.get i ≠ some (.resolved result)) : Settled h s := by
  intro op hop
  cases op with
  | doSyscall | cancel | reportProgress | complete | fail => cases hop
  | write => simp [step,hwriter,hqueue]
  | cancelReader => simp [step,hwriter]
  | receive => simp [step,hexecutor,htoKernel]
  | handle => simp [step,hexecutor]
  | send => simp [step,hexecutor]
  | read => simp [step,htoAgent]
  | resume i =>
    simp only [step]
    split
    next result hi => exact absurd hi (hfutures i result)
    · rfl

theorem matched_of_run_twoCalls : ∃ trace t, Run (step counting) (start 0) trace t ∧ Served t ∧
    t.dispatched = [(⟨"a",.spawn ()⟩,⟨"a",some 0⟩),(⟨"b",.listSiblings⟩,⟨"b",some 1⟩)] ∧
    t.futures.get 0 = some (.resumed ⟨"a",some 0⟩) ∧ t.futures.get 1 = some (.resumed ⟨"b",some 1⟩) := by
  obtain ⟨t,ht,hexecutor,htoKernel,hqueue,htoAgent,hwriter,hdispatched,hfutures⟩ : ∃ t, exec (step counting)
      [.doSyscall 0 ⟨"a",.spawn ()⟩,.doSyscall 1 ⟨"b",.listSiblings⟩,.write,.receive,.handle,.write,.send,.read,
        .handle,.receive,.handle,.send,.handle,.read,.resume 1,.resume 0] (start 0) = some t ∧
      t.executor = .receiving ∧ t.toKernel = [] ∧ t.queue = [] ∧ t.toAgent = [] ∧ t.writerDone = false ∧
      t.dispatched = [(⟨"a",.spawn ()⟩,⟨"a",some 0⟩),(⟨"b",.listSiblings⟩,⟨"b",some 1⟩)] ∧
      t.futures = (Table.empty.set 1 (.resumed ⟨"b",some 1⟩)).set 0 (.resumed ⟨"a",some 0⟩) :=
    ⟨_,rfl,rfl,rfl,rfl,rfl,rfl,rfl,rfl⟩
  have hsettled : Settled counting t := by
    apply settled_of_idle hexecutor htoKernel hqueue htoAgent hwriter
    intro i result hi
    rw [hfutures] at hi
    rcases Table.get_set_some hi with ⟨-,hresult⟩ | ⟨-,hi⟩
    · cases hresult
    · rcases Table.get_set_some hi with ⟨-,hresult⟩ | ⟨-,hi⟩
      · cases hresult
      · cases hi
  have run := Run.of_exec ht
  refine ⟨_,t,run,(matched_of_run run).2.2 hsettled,hdispatched,?_,?_⟩
  · rw [hfutures]
    rfl
  · rw [hfutures]
    rfl

/-- A coroutine beside the task makes a call, and the task ends. The call is dispatched and its result sent, but
`Execute` cancels the reader first: the coroutine waits forever. -/
theorem background_call_unanswered : ¬∀ (trace : List (Transition (SyscallStream ℕ Unit ℕ) (StreamStep Unit)))
    (t : SyscallStream ℕ Unit ℕ), Run (step counting) (start 0) trace t → Settled counting t →
    ∀ i call, t.calls.get i = some call → call ∈ t.put → t.Done i := by
  intro hall
  obtain ⟨t,ht,hexecutor,hqueue,hreader,hcall,hput,hfutures⟩ : ∃ t, exec (step counting)
      [.doSyscall 0 ⟨"a",.spawn ()⟩,.complete ⟨0,"done"⟩,.write,.receive,.handle,.send,.handle,.write,.write,
        .receive,.cancelReader] (start 0) = some t ∧
      t.executor = .returned (.completed ⟨0,"done"⟩) ∧ t.queue = [] ∧ t.readerCancelled = true ∧
      t.calls.get 0 = some ⟨"a",.spawn ()⟩ ∧ t.put = [⟨"a",.spawn ()⟩] ∧ t.futures = Table.empty.set 0 .waiting :=
    ⟨_,rfl,rfl,rfl,rfl,rfl,rfl,rfl⟩
  have hwaiting : t.futures.get 0 = some .waiting := by
    rw [hfutures]
    exact Table.get_set_self _ _ _
  have hsettled : Settled counting t := by
    intro op hop
    cases op with
    | doSyscall | cancel | reportProgress | complete | fail => cases hop
    | write => simp [step,hqueue]
    | cancelReader => simp [step,hreader]
    | receive => simp [step,hexecutor]
    | handle => simp [step,hexecutor]
    | send => simp [step,hexecutor]
    | read => simp [step,hreader]
    | resume i =>
      simp only [step]
      split
      next result hi =>
        rw [hfutures] at hi
        rcases Table.get_set_some hi with ⟨-,hresult⟩ | ⟨-,hi⟩
        · cases hresult
        · cases hi
      · rfl
  rcases hall _ t (Run.of_exec ht) hsettled 0 _ hcall (by rw [hput]; exact List.mem_cons_self) with hdone | ⟨_,hdone⟩
  · cases hwaiting.symm.trans hdone
  · cases hwaiting.symm.trans hdone

end SyscallStream
end HiveKernel
