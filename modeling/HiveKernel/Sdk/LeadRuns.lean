import HiveKernel.Sdk.LeadPool

/-! When no idle lead is lost, in every run of the tasks with the reaper and `on_shutdown`. -/
namespace HiveKernel
open Lib Dashboard

namespace LeadDesk
variable {s t : LeadDesk} {op : LeadOp}

/-- Neither the reaper nor `on_shutdown` waits for a kill. -/
def NoKillPending (s : LeadDesk) : Prop :=
  (∀ pid, ¬s.ReaperKills pid) ∧ ∀ next pid, s.shutdown ≠ .killing next pid

/-- No lead is taken while a kill is waited for, and none is dropped. -/
def Undisturbed (s : LeadDesk) : LeadOp → Prop
  | .acquire _ _ => s.idle ≠ [] → s.NoKillPending
  | .checked i .gone => s.DropsKilled i ∧ (s.idle ≠ [] → s.NoKillPending)
  | .checked i .cancelled | .executed i .cancelled | .logged i (.error _) | .logged i .cancelled => s.DropsKilled i
  | _ => True

/-- The reaper and `on_shutdown` have visited exactly the leads before their index. -/
structure Orderly (s : LeadDesk) : Prop where
  places : ∀ q, s.holders q+copies s.idle q ≤ 1
  reaper : ∀ now next stillIdle pid, s.reaper = .killing now next stillIdle pid → next ≤ s.idle.length ∧
    ∀ q, copies stillIdle q ≤ copies (s.idle.take next) q ∧
      (q ∉ s.killAsked → copies stillIdle q = copies (s.idle.take next) q)
  shutdown : ∀ next pid, s.shutdown = .killing next pid → next ≤ s.idle.length ∧
    ∀ lead ∈ s.idle.take next, lead.1 ∈ s.killAsked
  apart : s.shutdown ≠ .notYet → s.reaper = .cancelled

lemma orderly_start (clock : ℤ) : Orderly (start clock) := by
  constructor <;> simp [start,holders,copies]

/-- A step that leaves list, reaper and `on_shutdown` alone. -/
lemma Orderly.of_le (h : Orderly s) (hholders : ∀ q, t.holders q ≤ s.holders q) (hidle : t.idle = s.idle)
    (hreaper : t.reaper = s.reaper) (hshutdown : t.shutdown = s.shutdown)
    (hasked : ∀ q, q ∈ s.killAsked → q ∈ t.killAsked) : Orderly t where
  places q := by
    have hplaces := h.places q
    have hq := hholders q
    rw [hidle]
    omega
  reaper now next stillIdle pid hkills := by
    rw [hidle]
    obtain ⟨hnext,hcopies⟩ := h.reaper now next stillIdle pid (hreaper ▸ hkills)
    exact ⟨hnext,fun q => ⟨(hcopies q).1,fun hq => (hcopies q).2 (fun hq' => hq (hasked q hq'))⟩⟩
  shutdown next pid hkills := by
    rw [hidle]
    obtain ⟨hnext,hleads⟩ := h.shutdown next pid (hshutdown ▸ hkills)
    exact ⟨hnext,fun lead hlead => hasked _ (hleads lead hlead)⟩
  apart hne := by
    rw [hreaper]
    exact h.apart (hshutdown ▸ hne)

lemma Orderly.setTask (h : Orderly s) {i : ℕ} {stage : LeadStage} (hle : ∀ q, weight stage q ≤ s.load i q) :
    Orderly (s.setTask i stage) := by
  refine h.of_le (fun q => ?_) rfl rfl rfl (fun _ hq => hq)
  have hholders := s.holders_setTask i stage q
  have hq := hle q
  omega

lemma Orderly.end_task (h : Orderly s) (i : ℕ) : Orderly (s.setTask i .ended) :=
  h.setTask (fun q => by rw [weight_of_none rfl]; exact Nat.zero_le _)

lemma Orderly.askKill (h : Orderly s) (pid : ℕ) : Orderly (s.askKill pid) :=
  h.of_le (fun _ => le_rfl) rfl rfl rfl (fun _ hq => List.mem_append_left _ hq)

/-- A lead is taken when no kill is waited for. -/
lemma Orderly.takeLead (h : Orderly s) {i : ℕ} (hi : ∀ q, s.load i q = 0) (architect : Bool)
    (hpending : s.idle ≠ [] → s.NoKillPending) : Orderly (s.takeLead i architect) := by
  have hplaces : ∀ q, (s.takeLead i architect).holders q+copies (s.takeLead i architect).idle q ≤ 1 :=
    fun q => (s.places_takeLead hi architect q).trans_le (h.places q)
  rcases s.takeLead_cases hi architect with ⟨-,heq⟩ | ⟨pid,since,rest,hidle,heq,-,-⟩
  · rw [heq]
    exact h.setTask (fun q => by rw [weight_of_none rfl]; exact Nat.zero_le _)
  · obtain ⟨hreaper,hshutdown⟩ := hpending (by rw [hidle]; exact List.cons_ne_nil _ _)
    rw [heq] at hplaces ⊢
    refine ⟨hplaces,?_,?_,h.apart⟩
    · intro now next stillIdle pid' hkills
      exact absurd ⟨now,next,stillIdle,hkills⟩ (hreaper pid')
    · intro next pid' hkills
      exact absurd hkills (hshutdown next pid')

/-- The front lead is free then. -/
lemma Orderly.frontFree (h : Orderly s) (hpending : s.idle ≠ [] → s.NoKillPending) : s.FrontFree := by
  intro lead hlead
  have hmem : lead ∈ s.idle := List.mem_of_mem_head? hlead
  have hplaces := h.places lead.1
  have hpos := copies_pos hmem
  exact ⟨by omega,(hpending (List.ne_nil_of_mem hmem)).1 lead.1⟩

lemma Orderly.release (h : Orderly s) {i pid : ℕ} {architect : Bool}
    (hi : s.tasks.get i = some (.executing architect pid)) : Orderly ((s.release pid).setTask i .ended) := by
  have htake : ∀ next, next ≤ s.idle.length → (s.release pid).idle.take next = s.idle.take next :=
    fun next hnext => List.take_append_of_le_length hnext
  have hlength : s.idle.length ≤ (s.release pid).idle.length := by simp [LeadDesk.release]
  refine ⟨fun q => ?_,fun now next stillIdle pid' hkills => ?_,fun next pid' hkills => ?_,h.apart⟩
  · have hset := (s.release pid).holders_setTask i .ended q
    have hload : (s.release pid).load i q = weight (.executing architect pid) q := load_of_get hi q
    have hholders : (s.release pid).holders q = s.holders q := rfl
    have hcopies : copies (s.release pid).idle q = copies s.idle q+weight (.executing architect pid) q := by
      simp only [LeadDesk.release,copies_append]
      simp [copies,weight,LeadStage.held]
    have hplaces := h.places q
    rw [weight_of_none rfl] at hset
    simp only [LeadDesk.setTask] at hset ⊢
    omega
  · obtain ⟨hnext,hcopies⟩ := h.reaper now next stillIdle pid' hkills
    exact ⟨hnext.trans hlength,fun q => (htake next hnext).symm ▸ hcopies q⟩
  · obtain ⟨hnext,hleads⟩ := h.shutdown next pid' hkills
    exact ⟨hnext.trans hlength,(htake next hnext).symm ▸ hleads⟩

lemma Orderly.spawned (h : Orderly s) (hk : Known s) {i pid : ℕ} {architect : Bool}
    (hi : s.tasks.get i = some (.spawning architect)) (hnew : pid ∉ s.spawned) :
    Orderly ({ s with spawned := s.spawned++[pid] }.setTask i (.executing architect pid)) := by
  refine ⟨fun q => ?_,h.reaper,h.shutdown,h.apart⟩
  have hset := s.holders_setTask i (.executing architect pid) q
  have hheld : (LeadStage.executing architect pid).held = some pid := rfl
  have hplaces := h.places q
  rw [load_of_get hi,weight_of_none rfl] at hset
  change (s.setTask i (.executing architect pid)).holders q+copies s.idle q ≤ 1
  by_cases hqp : q = pid
  · have hcopies : copies s.idle q = 0 := by
      refine copies_eq_zero.mpr (fun lead hlead heq => hnew ?_)
      rw [← hqp,← heq]
      exact hk.idle lead hlead
    have hnone : s.holders q = 0 := hk.holders_eq_zero (hqp ▸ hnew)
    rw [hqp,weight_self hheld] at hset
    rw [hqp] at hnone hcopies ⊢
    omega
  · rw [weight_of_ne hheld hqp] at hset
    omega

/-- The copy of the reaper has the leads before its index whose kill was not requested. -/
def CopyOf (s : LeadDesk) (next : ℕ) (stillIdle : List (ℕ × ℤ)) : Prop := next ≤ s.idle.length ∧
  ∀ q, copies stillIdle q ≤ copies (s.idle.take next) q ∧
    (q ∉ s.killAsked → copies stillIdle q = copies (s.idle.take next) q)

/-- With such a copy the reaper goes on well. -/
lemma Orderly.reapsWell (h : Orderly s) (now : ℤ) {next : ℕ} {stillIdle : List (ℕ × ℤ)}
    (hcopy : s.CopyOf next stillIdle) : s.ReapsWell now next stillIdle := by
  rcases s.reap_cases now next stillIdle with ⟨-,-,hwell⟩ | ⟨fresh,pid,since,rest,hrest,-,-,hwell⟩
  · rw [hwell]
    exact fun q _ hnot => (hcopy.2 q).2 hnot
  · rw [hwell]
    have hmem : (pid,since) ∈ s.idle.drop next := by simp [hrest]
    have hpos := copies_pos (List.mem_of_mem_drop hmem)
    have hplaces := h.places pid
    simp only at hpos
    omega

lemma Orderly.reap (h : Orderly s) (now : ℤ) {next : ℕ} {stillIdle : List (ℕ × ℤ)}
    (hcopy : s.CopyOf next stillIdle) (hshutdown : s.shutdown = .notYet) : Orderly (s.reap now next stillIdle) := by
  obtain ⟨hnext,hcopies⟩ := hcopy
  have hnoShutdown : ∀ next' pid', s.shutdown ≠ .killing next' pid' := by simp [hshutdown]
  rcases s.reap_cases now next stillIdle with ⟨-,hreap,-⟩ | ⟨fresh,pid,since,rest,hrest,-,hreap,-⟩
  · rw [hreap]
    refine ⟨fun q => ?_,?_,fun next' pid' hkills => absurd hkills (hnoShutdown next' pid'),
      fun hne => absurd hshutdown hne⟩
    · have hplaces := h.places q
      have hq := (hcopies q).1
      rw [copies_take_drop s.idle next] at hplaces
      simp only [copies_append,holders] at hplaces ⊢
      omega
    · intro now' next' stillIdle' pid' hkills
      cases hkills
  · rw [hreap]
    refine ⟨h.places,?_,fun next' pid' hkills => absurd hkills (hnoShutdown next' pid'),
      fun hne => absurd hshutdown hne⟩
    rintro now' next' stillIdle' pid' hkills
    cases hkills
    have hidle : s.idle = (s.idle.take next++fresh++[(pid,since)])++rest := by
      have hsplit := List.take_append_drop next s.idle
      rw [hrest] at hsplit
      simpa using hsplit.symm
    have hlength : (s.idle.take next++fresh++[(pid,since)]).length = next+fresh.length+1 := by
      simp [List.length_take,Nat.min_eq_left hnext,Nat.add_assoc]
    have htake : s.idle.take (next+fresh.length+1) = s.idle.take next++fresh++[(pid,since)] := by
      rw [← hlength]
      exact (congrArg (List.take _) hidle).trans List.take_left
    refine ⟨?_,fun q => ?_⟩
    · have hle := congrArg List.length hidle
      rw [List.length_append,hlength] at hle
      exact hle ▸ Nat.le_add_right _ _
    · simp only [LeadDesk.askKill]
      rw [htake]
      simp only [copies_append,List.mem_append,List.mem_singleton,not_or]
      have hq := hcopies q
      refine ⟨by omega,?_⟩
      rintro ⟨hnot,hne⟩
      have hlast : copies [(pid,since)] q = 0 :=
        copies_eq_zero.mpr (by simpa using fun heq => hne heq.symm)
      have hsame := hq.2 hnot
      omega

/-- `on_shutdown` has requested the kills of the leads before its index. -/
def AskedBefore (s : LeadDesk) (next : ℕ) : Prop :=
  next ≤ s.idle.length ∧ ∀ lead ∈ s.idle.take next, lead.1 ∈ s.killAsked

lemma AskedBefore.clearsWell {next : ℕ} (h : s.AskedBefore next) : s.ClearsWell next := by
  intro hnone lead hlead
  have hall : s.idle.take next = s.idle := List.take_of_length_le (List.getElem?_eq_none_iff.mp hnone)
  exact h.2 lead (hall.symm ▸ hlead)

lemma Orderly.shutdownFrom (h : Orderly s) {next : ℕ} (hasked : s.AskedBefore next)
    (hcancelled : s.reaper = .cancelled) : Orderly (s.shutdownFrom next) := by
  rcases s.shutdownFrom_cases next with ⟨-,heq⟩ | ⟨lead,hlead,heq⟩
  · rw [heq]
    refine ⟨fun q => ?_,by simp [hcancelled],by simp,fun _ => hcancelled⟩
    have hplaces := h.places q
    have hempty : copies [] q = 0 := rfl
    simp only [holders,hempty] at hplaces ⊢
    omega
  · rw [heq]
    refine ⟨h.places,by simp [LeadDesk.askKill,hcancelled],?_,fun _ => hcancelled⟩
    rintro next' pid' hkills
    cases hkills
    obtain ⟨hlt,hget⟩ := List.getElem?_eq_some_iff.mp hlead
    refine ⟨hlt,fun lead' hlead' => ?_⟩
    simp only [LeadDesk.askKill] at hlead' ⊢
    rw [List.take_add_one,hlead] at hlead'
    rcases List.mem_append.mp hlead' with hlead' | hlead'
    · exact List.mem_append_left _ (hasked.2 lead' hlead')
    · obtain rfl : lead' = lead := by simpa using hlead'
      exact List.mem_append_right _ List.mem_cons_self

/-- Nothing goes wrong in a step that does not interfere. -/
lemma Orderly.careful (h : Orderly s) (hundisturbed : s.Undisturbed op) : s.Careful op := by
  cases op with
  | acquire i architect => exact h.frontFree hundisturbed
  | checked i outcome =>
    cases outcome with
    | alive => trivial
    | gone => exact ⟨hundisturbed.1,(h.end_task i).frontFree hundisturbed.2⟩
    | cancelled => exact hundisturbed
  | executed i outcome =>
    cases outcome with
    | ok u => trivial
    | error text => trivial
    | cancelled => exact hundisturbed
  | logged i outcome =>
    cases outcome with
    | ok u => trivial
    | error text => exact hundisturbed
    | cancelled => exact hundisturbed
  | reaperWakes => exact h.reapsWell s.clock ⟨Nat.zero_le _,by simp⟩
  | reaperGoesOn => exact fun now next stillIdle pid hkills => h.reapsWell now (h.reaper now next stillIdle pid hkills)
  | shutdownGoesOn =>
    have hstart : s.AskedBefore 0 := ⟨Nat.zero_le _,by simp⟩
    exact ⟨fun _ => hstart.clearsWell,
      fun next pid hkills => AskedBefore.clearsWell (h.shutdown next pid hkills)⟩
  | spawned i outcome => trivial
  | killed i => trivial
  | onShutdown => trivial
  | shutdownCancelled => trivial
  | pass time => trivial

theorem Orderly.move (h : Orderly s) (hk : Known s) (hmove : Move s op t) (hundisturbed : s.Undisturbed op) :
    Orderly t := by
  cases hmove with
  | acquire hi => exact h.takeLead (load_of_none hi) _ hundisturbed
  | alive hi => exact h.setTask (fun q => (load_of_get hi q).ge)
  | @gone i pid architect hi =>
    have hload : ∀ q, (s.setTask i .ended).load i q = 0 := fun q =>
      (load_of_get (Table.get_set_self _ _ _) q).trans (weight_of_none rfl q)
    exact (h.end_task i).takeLead hload architect hundisturbed.2
  | drop hi hheld hop => exact h.end_task _
  | spawned hi hnew => exact h.spawned hk hi hnew
  | notSpawned hi => exact h.end_task _
  | release hi => exact h.release hi
  | log hi => exact h.setTask (fun q => (load_of_get hi q).ge)
  | @kill i pid stage op hi hheld hop =>
    refine (h.askKill pid).setTask (fun q => ?_)
    have hload : (s.askKill pid).load i q = weight stage q := load_of_get hi q
    rw [hload,weight,weight,hheld]
    exact le_rfl
  | killed hi => exact h.end_task _
  | @reap now next stillIdle op hcopy hop =>
    have hnotYet : s.shutdown = .notYet := by
      by_contra hne
      have hcancelled := h.apart hne
      rcases hcopy with ⟨hreaper,-⟩ | ⟨pid,hreaper⟩
      · cases hreaper.symm.trans hcancelled
      · cases hreaper.symm.trans hcancelled
    refine h.reap now ?_ hnotYet
    rcases hcopy with ⟨-,rfl,rfl⟩ | ⟨pid,hreaper⟩
    · exact ⟨Nat.zero_le _,by simp⟩
    · exact h.reaper now next stillIdle pid hreaper
  | onShutdown => exact ⟨h.places,by simp,by simp,fun _ => rfl⟩
  | @shutdown next hstage hop =>
    rcases hstage with ⟨hshutdown,rfl⟩ | ⟨pid,hshutdown⟩
    · exact h.shutdownFrom ⟨Nat.zero_le _,by simp⟩ (h.apart (by simp [hshutdown]))
    · exact h.shutdownFrom (h.shutdown next pid hshutdown) (h.apart (by simp [hshutdown]))
  | shutdownCancelled hbegun => exact ⟨h.places,h.reaper,by simp,fun _ => h.apart hbegun⟩
  | pass time => exact ⟨h.places,h.reaper,h.shutdown,h.apart⟩

variable {trace : List (Transition LeadDesk LeadOp)}

/-- In every run: every lead is where it belongs in all states exactly if all steps are careful, and they are if
no lead is taken while a kill is waited for and none is dropped. -/
theorem kept_iff_careful_of_run {clock : ℤ} (run : Run step (start clock) trace t) :
    ((∀ e ∈ trace, Kept e.target) ↔ ∀ e ∈ trace, e.source.Careful e.label) ∧
      ((∀ e ∈ trace, e.source.Undisturbed e.label) → ∀ e ∈ trace, e.source.Careful e.label) := by
  constructor
  · refine run.good_iff_allowed (fun s => Kept s ∧ Known s) Kept Careful ?_ ⟨kept_start clock,known_start clock⟩
    rintro s op t ⟨hkept,hknown⟩ hstep
    have hmove := move_of_step hstep
    have hiff := kept_move_iff hkept hknown hmove
    exact ⟨hiff,fun hcareful => ⟨hiff.mpr hcareful,hknown.move hmove⟩⟩
  · intro hundisturbed e he
    have hkept : ∀ s op t, Orderly s ∧ Known s → s.Undisturbed op → step s op = some t → Orderly t ∧ Known t := by
      rintro s op t ⟨horderly,hknown⟩ hund hstep
      have hmove := move_of_step hstep
      exact ⟨horderly.move hknown hmove hund,hknown.move hmove⟩
    have hall := run.invariant_of_allowed hkept ⟨orderly_start clock,known_start clock⟩ hundisturbed
    exact (hall.1 e he).1.1.careful (hundisturbed e he)

/-- A lead that has been idle for longer than five minutes is reaped. -/
def reapedInPeace : List LeadOp :=
  [.acquire 0 false,.spawned 0 (.ok 7),.executed 0 (.ok ()),.pass (301*second),.reaperWakes,.reaperGoesOn]

theorem kept_iff_careful_of_run_inPeace : ∃ t : LeadDesk, t.idle = [] ∧ t.killAsked = [7] ∧
    ((∀ e ∈ transitions step reapedInPeace (start 0), Kept e.target) ↔
      ∀ e ∈ transitions step reapedInPeace (start 0), e.source.Careful e.label) ∧
    ((∀ e ∈ transitions step reapedInPeace (start 0), e.source.Undisturbed e.label) →
      ∀ e ∈ transitions step reapedInPeace (start 0), e.source.Careful e.label) := by
  have hexec : ∃ t, exec step reapedInPeace (start 0) = some t ∧ t.idle = [] ∧ t.killAsked = [7] :=
    ⟨_,rfl,rfl,rfl⟩
  obtain ⟨t,ht,hidle,hasked⟩ := hexec
  exact ⟨t,hidle,hasked,kept_iff_careful_of_run (Run.of_exec ht)⟩

/-- While the reaper waits for the kill of a stale lead, a task pops it: the fresh lead behind it is skipped and
is lost when the reaper puts its copy in place. -/
def poppedMeanwhile : List LeadOp :=
  [.acquire 0 false,.spawned 0 (.ok 7),.acquire 1 false,.spawned 1 (.ok 8),.executed 0 (.ok ()),.pass (301*second),
    .executed 1 (.ok ()),.reaperWakes,.acquire 2 false,.reaperGoesOn]

theorem reaper_loses_lead : ¬∀ (clock : ℤ) (trace : List (Transition LeadDesk LeadOp)) (t : LeadDesk),
    Run step (start clock) trace t → Kept t := by
  intro h
  have hexec : ∃ t, exec step poppedMeanwhile (start 0) = some t ∧ t.idle = [] ∧ t.spawned = [7,8] ∧
      t.killAsked = [7] ∧ t.holders 8 = 0 := ⟨_,rfl,rfl,rfl,rfl,rfl⟩
  obtain ⟨t,ht,hidle,hspawned,hasked,hholders⟩ := hexec
  have honce := (h 0 _ t (Run.of_exec ht)).once 8 (by simp [hspawned]) (by simp [hasked])
  rw [hidle,hholders] at honce
  exact absurd honce (by decide)

end LeadDesk
end HiveKernel
