import HiveKernel.Kernel.Residue

/-! The traces of the processes. A trace is set by a message or a task and handed on by every spawn, which appends
the PID of the child; so the span of a process spells the spawns that lead to it from the process whose trace was
set. -/
namespace HiveKernel
open Lib

/-- A span with the PIDs of a series of spawns appended. -/
def spell (span : String) (path : List ℕ) : String := path.foldl (fun span pid => s!"{span}/{pid}") span

@[simp] lemma spell_nil (span : String) : spell span [] = span := rfl

lemma spell_snoc (span : String) (path : List ℕ) (pid : ℕ) :
    spell span (path++[pid]) = s!"{spell span path}/{pid}" := by
  rw [spell,List.foldl_append]
  rfl

/-- A slash and the PID after it. -/
def leg (pid : ℕ) : List Char := '/'::Nat.toDigits 10 pid

lemma toList_spell (span : String) (path : List ℕ) :
    (spell span path).toList = span.toList++(path.map leg).flatten := by
  induction path using List.reverseRecOn with
  | nil => simp
  | append_singleton path pid ih =>
    rw [spell_snoc,List.map_append,List.flatten_append,← List.append_assoc,← ih]
    simp [leg]
    rfl

/-- The digits up to the next slash. -/
def firstLeg (cs : List Char) : List Char := cs.takeWhile (· ≠ '/')

lemma slash_notMem_toDigits (pid : ℕ) : '/' ∉ Nat.toDigits 10 pid := by
  intro h
  have hdigit : ('/' : Char).isDigit := Nat.isDigit_of_mem_toDigits (by decide) (by decide) h
  exact absurd hdigit (by decide)

lemma takeWhile_leg {cs : List Char} (pid : ℕ) (hcs : cs = [] ∨ ∃ rest, cs = '/'::rest) :
    firstLeg (Nat.toDigits 10 pid++cs) = Nat.toDigits 10 pid := by
  have hall : ∀ c ∈ Nat.toDigits 10 pid, decide (c ≠ '/') = true := by
    intro c hc
    rw [decide_eq_true_eq]
    rintro rfl
    exact slash_notMem_toDigits pid hc
  rw [firstLeg,List.takeWhile_append_of_pos hall]
  rcases hcs with rfl | ⟨rest,rfl⟩
  · simp
  · simp

lemma flatten_legs (path : List ℕ) :
    (path.map leg).flatten = [] ∨ ∃ rest, (path.map leg).flatten = '/'::rest := by
  cases path with
  | nil => exact .inl rfl
  | cons pid path => exact .inr ⟨_,rfl⟩

/-- Different series of spawns are spelt differently. -/
theorem spell_injective (span : String) : Function.Injective (spell span) := by
  intro path path' h
  have hchars : (path.map leg).flatten = (path'.map leg).flatten := by
    have htoList := congrArg String.toList h
    rw [toList_spell,toList_spell] at htoList
    exact List.append_cancel_left htoList
  clear h
  induction path generalizing path' with
  | nil =>
    cases path' with
    | nil => rfl
    | cons pid' path' => exact absurd hchars (by simp [leg])
  | cons pid path ih =>
    cases path' with
    | nil => exact absurd hchars (by simp [leg])
    | cons pid' path' =>
      have hrest : Nat.toDigits 10 pid++(path.map leg).flatten =
          Nat.toDigits 10 pid'++(path'.map leg).flatten := by
        simpa [leg] using hchars
      have hfirst := congrArg firstLeg hrest
      rw [takeWhile_leg pid (flatten_legs path),takeWhile_leg pid' (flatten_legs path')] at hfirst
      obtain rfl : pid = pid' := by
        rw [← @Nat.ofDigitChars_ten_toDigits pid,hfirst,Nat.ofDigitChars_ten_toDigits]
      rw [ih (List.append_cancel_left hrest)]

namespace System
variable {s t : System} {op : KernelOp} {parent pid : ℕ} {cfg : Config} {now : ℤ}
  {runtime : Option RuntimeManager} {trace : List (Transition System KernelOp)}

/-- The call spawns that process as a child of that parent. -/
def Spawns (s : System) (op : KernelOp) (parent pid : ℕ) : Prop :=
  ∃ now launch req child, op = .spawnChild now launch req ∧ req.parentPID = parent ∧
    (s.king.spawnChild now launch req).1 = .ok child ∧ child.pid = pid

/-- The call writes the trace of the process. -/
def Traces (s : System) (op : KernelOp) (pid : ℕ) : Prop :=
  (∃ traceID traceSpan, op = .setTrace pid traceID traceSpan) ∨
    ∃ parent, s.Spawns op parent pid ∧ (s.king.getTrace parent).traceID ≠ ""

/-- The trace of the process was set somewhere and has come to it along that series of spawns, and nobody has
written it since. -/
inductive Carries : List (Transition System KernelOp) → ℕ → TraceCtx → List ℕ → Prop
  | set (past : List (Transition System KernelOp)) (s t : System) (pid : ℕ) (traceID traceSpan : String) :
      Carries (past++[⟨s,.setTrace pid traceID traceSpan,t⟩]) pid ⟨traceID,traceSpan⟩ []
  | spawn {past : List (Transition System KernelOp)} {parent pid : ℕ} {ctx : TraceCtx} {path : List ℕ}
      {e : Transition System KernelOp} (above : Carries past parent ctx path) (traced : ctx.traceID ≠ "")
      (spawns : e.source.Spawns e.label parent pid) : Carries (past++[e]) pid ctx (path++[pid])
  | keep {past : List (Transition System KernelOp)} {pid : ℕ} {ctx : TraceCtx} {path : List ℕ}
      {e : Transition System KernelOp} (before : Carries past pid ctx path)
      (untouched : ¬e.source.Traces e.label pid) : Carries (past++[e]) pid ctx path

lemma getTrace_setTrace (k : King) (pid : ℕ) (traceID traceSpan : String) (j : ℕ) :
    (k.setTrace pid traceID traceSpan).getTrace j = if j = pid then ⟨traceID,traceSpan⟩ else k.getTrace j := by
  simp only [King.getTrace,King.setTrace,Table.get_set]
  split_ifs <;> rfl

lemma getTrace_passTrace (k : King) (parentPID pid j : ℕ) :
    (k.passTrace parentPID pid).getTrace j =
      if j = pid ∧ (k.getTrace parentPID).traceID ≠ "" then
        ⟨(k.getTrace parentPID).traceID,s!"{(k.getTrace parentPID).traceSpan}/{pid}"⟩
      else k.getTrace j := by
  simp only [King.passTrace]
  by_cases hid : (k.getTrace parentPID).traceID = ""
  · rw [if_pos hid,if_neg (fun h => h.2 hid)]
  · rw [if_neg hid,getTrace_setTrace]
    by_cases hj : j = pid
    · rw [if_pos hj,if_pos ⟨hj,hid⟩]
    · rw [if_neg hj,if_neg (fun h => hj h.1)]

/-- What a spawn does to the traces. -/
lemma getTrace_spawnChild (k : King) (now : ℤ) (launch : Except String String) (req : SpawnRequest) :
    ((∃ e, (k.spawnChild now launch req).1 = .error e) ∧
      ∀ j, (k.spawnChild now launch req).2.getTrace j = k.getTrace j) ∨
    ∃ child, (k.spawnChild now launch req).1 = .ok child ∧ child.pid = k.registry.nextPID ∧
      (k.registry.get req.parentPID).isSome ∧
      ∀ j, (k.spawnChild now launch req).2.getTrace j =
        if j = child.pid ∧ (k.getTrace req.parentPID).traceID ≠ "" then
          ⟨(k.getTrace req.parentPID).traceID,s!"{(k.getTrace req.parentPID).traceSpan}/{child.pid}"⟩
        else k.getTrace j := by
  rcases King.spawnChild_cases k now launch req with ⟨-,e,he⟩ | ⟨parent,hadm,-,⟨e,-,he⟩ | ⟨budget,-,he⟩⟩
  · rw [he]
    exact .inl ⟨⟨e,rfl⟩,fun _ => rfl⟩
  · rw [he]
    exact .inl ⟨⟨_,rfl⟩,fun _ => rfl⟩
  · have hp : (k.withChild now req parent budget).registry.get (k.newborn now req parent).pid =
        some (k.newborn now req parent) := (Registry.get_register _ _ _ _).trans (if_pos rfl)
    rw [he]
    rcases King.startChild_cases hp with ⟨-,e,hs⟩ | ⟨-,addr,registry,runtime,hs,-⟩
    · rw [hs]
      exact .inl ⟨⟨e,rfl⟩,fun _ => rfl⟩
    · rw [hs]
      refine .inr ⟨_,rfl,rfl,by rw [hadm.found]; rfl,fun j => ?_⟩
      exact getTrace_passTrace _ req.parentPID (k.newborn now req parent).pid j

/-- Every way a step can go for the traces. -/
lemma getTrace_step (hs : s.step op = some t) (j : ℕ) :
    (∃ traceID traceSpan, op = .setTrace j traceID traceSpan ∧ t.king.getTrace j = ⟨traceID,traceSpan⟩) ∨
    (∃ parent, s.Spawns op parent j ∧ j = s.king.registry.nextPID ∧ (s.king.registry.get parent).isSome ∧
      (s.king.getTrace parent).traceID ≠ "" ∧
      t.king.getTrace j = ⟨(s.king.getTrace parent).traceID,s!"{(s.king.getTrace parent).traceSpan}/{j}"⟩) ∨
    (¬s.Traces op j ∧ t.king.getTrace j = s.king.getTrace j) := by
  have hquiet : (∀ pid traceID traceSpan, op ≠ .setTrace pid traceID traceSpan) →
      (∀ now launch req, op ≠ .spawnChild now launch req) → ¬s.Traces op j := by
    rintro hset hspawn (⟨traceID,traceSpan,he⟩ | ⟨parent,⟨now,launch,req,-,he,-⟩,-⟩)
    · exact hset _ _ _ he
    · exact hspawn _ _ _ he
  cases op with
  | setTrace pid traceID traceSpan =>
    cases hs
    by_cases hj : pid = j
    · subst hj
      exact .inl ⟨traceID,traceSpan,rfl,by simp [getTrace_setTrace]⟩
    · refine .inr (.inr ⟨?_,?_⟩)
      · rintro (⟨traceID,traceSpan,he⟩ | ⟨parent,⟨now,launch,req,-,he,-⟩,-⟩)
        · cases he
          exact hj rfl
        · cases he
      · rw [getTrace_setTrace,if_neg (fun h => hj h.symm)]
  | spawnChild now launch req =>
    cases hs
    rcases getTrace_spawnChild s.king now launch req with ⟨⟨e,he⟩,hsame⟩ | ⟨child,hok,hpid,hparent,hget⟩
    · refine .inr (.inr ⟨?_,hsame j⟩)
      rintro (⟨traceID,traceSpan,hop⟩ | ⟨parent,⟨now',launch',req',child,hop,-,hok,-⟩,-⟩)
      · cases hop
      · cases hop
        rw [he] at hok
        cases hok
    · by_cases htraced : j = child.pid ∧ (s.king.getTrace req.parentPID).traceID ≠ ""
      · obtain ⟨rfl,hid⟩ := htraced
        refine .inr (.inl ⟨req.parentPID,⟨now,launch,req,child,rfl,rfl,hok,rfl⟩,hpid,hparent,hid,?_⟩)
        exact (hget child.pid).trans (if_pos ⟨rfl,hid⟩)
      · refine .inr (.inr ⟨?_,(hget j).trans (if_neg htraced)⟩)
        rintro (⟨traceID,traceSpan,hop⟩ | ⟨parent,⟨now',launch',req',child',hop,rfl,hok',rfl⟩,hid⟩)
        · cases hop
        · cases hop
          rw [hok] at hok'
          cases hok'
          exact htraced ⟨rfl,hid⟩
  | waitResult pid =>
    cases hs
    exact .inr (.inr ⟨hquiet (by simp) (by simp),rfl⟩)
  | completeTask now pid exitCode output errMsg =>
    cases hs
    refine .inr (.inr ⟨hquiet (by simp) (by simp),?_⟩)
    simp only [King.completeTask]
    split <;> rfl
  | _ =>
    have hsame := quiet_step King.traceStore (fun _ _ _ _ _ _ _ => rfl) hs not_false
    refine .inr (.inr ⟨hquiet (by simp) (by simp),?_⟩)
    simp only [King.getTrace,hsame]

/-- The span a process carries, and the path along which it has come. -/
lemma Carries.getTrace {ctx : TraceCtx} {path : List ℕ} (h : Carries trace pid ctx path)
    (run : Run step s trace t) : t.king.getTrace pid = ⟨ctx.traceID,spell ctx.traceSpan path⟩ := by
  induction h generalizing t with
  | set past s' t' pid traceID traceSpan =>
    obtain ⟨-,hstep,hrest⟩ := run.split
    cases hrest
    rcases getTrace_step hstep pid with ⟨_,_,hop,ht⟩ | ⟨parent,⟨_,_,_,_,hop,-⟩,-⟩ | ⟨hnot,-⟩
    · cases hop
      exact ht
    · cases hop
    · exact absurd (.inl ⟨traceID,traceSpan,rfl⟩) hnot
  | @spawn past parent pid ctx path e above traced spawns ih =>
    obtain ⟨hbefore,hstep,hrest⟩ := run.split
    cases hrest
    have habove := ih hbefore
    obtain ⟨now,launch,req,child,hop,hparent,hok,hpid⟩ := spawns
    rcases getTrace_step hstep pid with ⟨_,_,hset,-⟩ | ⟨parent',⟨_,_,_,_,hop',hparent',-⟩,-,-,-,ht⟩ | ⟨hnot,-⟩
    · rw [hop] at hset
      cases hset
    · rw [hop] at hop'
      cases hop'
      obtain rfl : parent = parent' := hparent.symm.trans hparent'
      rw [ht,habove,spell_snoc]
    · refine absurd (.inr ⟨parent,⟨now,launch,req,child,hop,hparent,hok,hpid⟩,?_⟩) hnot
      rw [habove]
      exact traced
  | @keep past pid ctx path e before untouched ih =>
    obtain ⟨hbefore,hstep,hrest⟩ := run.split
    cases hrest
    rcases getTrace_step hstep pid with ⟨_,_,hset,-⟩ | ⟨parent,hspawn,-,-,hid,-⟩ | ⟨-,ht⟩
    · exact absurd (.inl ⟨_,_,hset⟩) untouched
    · exact absurd (.inr ⟨parent,hspawn,hid⟩) untouched
    · rw [ht]
      exact ih hbefore

/-- Nobody has a trace that has not come to it. -/
lemma exists_carries (run : Run step (boot cfg now runtime) trace t) (pid : ℕ)
    (hid : (t.king.getTrace pid).traceID ≠ "") : ∃ ctx path, Carries trace pid ctx path := by
  refine run.snoc_induction (P := fun trace t => ∀ pid, (t.king.getTrace pid).traceID ≠ "" →
    ∃ ctx path, Carries trace pid ctx path) ?_ ?_ pid hid
  · intro pid hid
    exact absurd rfl hid
  · intro past s op t hrun ih hstep pid hid
    rcases getTrace_step hstep pid with ⟨traceID,traceSpan,rfl,-⟩ | ⟨parent,hspawn,-,-,htraced,-⟩ | ⟨hnot,ht⟩
    · exact ⟨_,_,.set past s t pid traceID traceSpan⟩
    · obtain ⟨ctx,path,habove⟩ := ih parent htraced
      refine ⟨ctx,_,.spawn habove ?_ hspawn⟩
      rw [habove.getTrace hrun] at htraced
      exact htraced
    · rw [ht] at hid
      obtain ⟨ctx,path,hbefore⟩ := ih pid hid
      exact ⟨ctx,path,.keep hbefore hnot⟩

/-- The path leads to the process, through ever larger PIDs. -/
lemma Carries.path {ctx : TraceCtx} {path : List ℕ} (h : Carries trace pid ctx path)
    (run : Run step s trace t) : (path ≠ [] → path.getLast? = some pid) ∧ path.Pairwise (· < ·) := by
  induction h generalizing t with
  | set => exact ⟨fun h => absurd rfl h,.nil⟩
  | @spawn past parent pid ctx path e above traced spawns ih =>
    obtain ⟨hbefore,hstep,-⟩ := run.split
    obtain ⟨hlast,hincreasing⟩ := ih hbefore
    refine ⟨fun _ => by simp,?_⟩
    have hlt : parent < pid := by
      rcases getTrace_step hstep pid with ⟨_,_,hset,-⟩ | ⟨parent',⟨_,_,_,_,hop',hparent',-⟩,hpid,hsome,-⟩ | ⟨hnot,-⟩
      · obtain ⟨_,_,_,_,hop,-⟩ := spawns
        rw [hop] at hset
        cases hset
      · obtain ⟨_,_,_,_,hop,hparent,-⟩ := spawns
        rw [hop] at hop'
        cases hop'
        obtain rfl : parent = parent' := hparent.symm.trans hparent'
        obtain ⟨p,hp⟩ := Option.isSome_iff_exists.mp hsome
        rw [hpid]
        exact (Registry.get_bound hp).2
      · refine absurd (.inr ⟨parent,spawns,?_⟩) hnot
        rw [above.getTrace hbefore]
        exact traced
    rw [List.pairwise_append]
    refine ⟨hincreasing,List.pairwise_singleton _ _,fun a ha b hb => ?_⟩
    obtain rfl := List.mem_singleton.mp hb
    have hle : a ≤ parent := by
      have hne : path ≠ [] := List.ne_nil_of_mem ha
      obtain ⟨init,rfl⟩ : ∃ init, path = init++[parent] := by
        refine ⟨path.dropLast,?_⟩
        exact (List.dropLast_append_getLast? parent (hlast hne)).symm
      rcases List.mem_append.mp ha with ha | ha
      · exact ((List.pairwise_append.mp hincreasing).2.2 a ha parent (by simp)).le
      · exact (List.mem_singleton.mp ha).le
    omega
  | @keep past pid ctx path e before untouched ih => exact ih run.split.1

/-- In every run of the kernel a process has a trace exactly if one has come to it by spawns from a process whose
trace was set; its span is the one set there with the PIDs of the spawns appended, each larger than the one before,
and no other series of spawns is spelt like this. -/
theorem spans_of_run (run : Run step (boot cfg now runtime) trace s) (pid : ℕ) :
    ((s.king.getTrace pid).traceID ≠ "" ↔ ∃ ctx path, ctx.traceID ≠ "" ∧ Carries trace pid ctx path) ∧
    ∀ ctx path, Carries trace pid ctx path →
      s.king.getTrace pid = ⟨ctx.traceID,spell ctx.traceSpan path⟩ ∧
      (path ≠ [] → path.getLast? = some pid) ∧ path.Pairwise (· < ·) ∧
      ∀ path', spell ctx.traceSpan path' = (s.king.getTrace pid).traceSpan → path' = path := by
  refine ⟨⟨fun hid => ?_,?_⟩,fun ctx path hcarries => ?_⟩
  · obtain ⟨ctx,path,hcarries⟩ := exists_carries run pid hid
    refine ⟨ctx,path,?_,hcarries⟩
    rw [hcarries.getTrace run] at hid
    exact hid
  · rintro ⟨ctx,path,hid,hcarries⟩
    rw [hcarries.getTrace run]
    exact hid
  · obtain ⟨hlast,hincreasing⟩ := hcarries.path run
    refine ⟨hcarries.getTrace run,hlast,hincreasing,fun path' hspan => ?_⟩
    rw [hcarries.getTrace run] at hspan
    exact spell_injective ctx.traceSpan hspan

/-- A message with a trace reaches the kernel, which spawns a lead, which spawns a worker. -/
def tracedMessage : KernelOp := .setTrace 1 "request-7" "user"
def spawnLead : KernelOp := .spawnChild 0 (.ok "") (Registry.agentRequest 1 "lead" .lead)
def spawnWorker : KernelOp := .spawnChild 0 (.ok "") (Registry.agentRequest 2 "worker" .worker)

theorem spans_of_run_worker : ∃ trace s, Run step (boot King.exampleConfig 0 none) trace s ∧
    s.king.getTrace 3 = ⟨"request-7","user/2/3"⟩ := by
  obtain ⟨a,b,c,ha,hb,hc⟩ : ∃ a b c, step (boot King.exampleConfig 0 none) tracedMessage = some a ∧
      step a spawnLead = some b ∧ step b spawnWorker = some c := ⟨_,_,_,rfl,rfl,rfl⟩
  have hrun := (((Run.nil (boot King.exampleConfig 0 none)).snoc ha).snoc hb).snoc hc
  have hlead : a.Spawns spawnLead 1 2 := by
    cases ha
    exact ⟨_,_,_,_,rfl,rfl,rfl,rfl⟩
  have hworker : b.Spawns spawnWorker 2 3 := by
    cases ha
    cases hb
    exact ⟨_,_,_,_,rfl,rfl,rfl,rfl⟩
  have hcarries := (Carries.set [] (boot King.exampleConfig 0 none) a 1 "request-7" "user").spawn
    (e := ⟨a,spawnLead,b⟩) (by decide) hlead |>.spawn (e := ⟨b,spawnWorker,c⟩) (by decide) hworker
  refine ⟨_,c,hrun,?_⟩
  rw [((spans_of_run hrun 3).2 _ _ hcarries).1]
  decide

end System
end HiveKernel
