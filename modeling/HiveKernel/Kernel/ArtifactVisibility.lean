import HiveKernel.Ipc.ArtifactStore
import HiveKernel.Kernel.KernelBudget

/-! Who can read an artifact while processes come and go. The check looks up the storer and walks over
its descendants at the time of the read, and a scan may have removed the storer by then, or the process
that connected a dead one to it. -/
namespace HiveKernel
open Lib Relation

namespace Registry
variable {r : Registry}

/-- An edge after a process was reaped: an old one, or a way around the reaped process. -/
lemma childOf_reap (ho : r.Ordered) {now : ℤ} {childOrder : List ℕ} {z : Process}
    (hz : r.get z.pid = some z) (hall : ∀ j, (r.get j).isSome → j ∈ childOrder) {j i : ℕ}
    (h : (r.reap now childOrder z).ChildOf j i) : TransGen r.ChildOf j i := by
  obtain ⟨c',hc',hchild⟩ := h
  rw [get_reap hall] at hc'
  split_ifs at hc' with hj
  obtain ⟨c,hc,rfl⟩ := Option.map_eq_some_iff.mp hc'
  unfold adoptedBy at hchild
  split_ifs at hchild with hm
  · have hcz : r.ChildOf j z.pid := ⟨c,hc,hm.1,fun he => hj ((get_pid hc).symm.trans he)⟩
    have hzi : r.ChildOf z.pid i := ⟨z,hz,hchild.1,hchild.1 ▸ (ho.ppid_lt hz).ne'⟩
    exact .tail (.single hcz) hzi
  · exact .single ⟨c,hc,hchild⟩

/-- Whoever is below `top` stays below it when another process is reaped, unless a dead child of that
one is left behind. -/
lemma descends_reap (ho : r.Ordered) {now : ℤ} {childOrder : List ℕ} {z : Process}
    (hz : r.get z.pid = some z) (hall : ∀ j, (r.get j).isSome → j ∈ childOrder) {top : ℕ}
    (htop : (r.get top).isSome) (hne : z.pid ≠ top)
    (hmoved : TransGen r.ChildOf z.pid top → ∀ j c, r.get j = some c → c.ppid = z.pid → c.state ≠ .dead)
    {j : ℕ} (hj : j ≠ z.pid) (h : TransGen r.ChildOf j top) :
    TransGen (r.reap now childOrder z).ChildOf j top := by
  induction j using Nat.strong_induction_on with
  | _ j ih =>
    have hup : ∀ i, (r.reap now childOrder z).ChildOf j i → i < j → i ≠ z.pid →
        ReflTransGen r.ChildOf i top → TransGen (r.reap now childOrder z).ChildOf j top := by
      intro i hji hlt hi hrest
      rcases reflTransGen_iff_eq_or_transGen.mp hrest with rfl | hrest
      · exact .single hji
      · exact .head hji (ih i hlt hi hrest)
    obtain ⟨i,hji,hi⟩ := TransGen.head'_iff.mp h
    obtain ⟨c,hc,rfl,hself⟩ := id hji
    have hget : (r.reap now childOrder z).get j = some (r.adoptedBy now z c) := by
      rw [get_reap hall,if_neg hj,hc]
      rfl
    by_cases hcz : c.ppid = z.pid
    · rw [hcz] at hi
      have hztop : TransGen r.ChildOf z.pid top :=
        (reflTransGen_iff_eq_or_transGen.mp hi).resolve_left (fun he => hne he.symm)
      obtain ⟨y,⟨z',hz',rfl,-⟩,hy⟩ := TransGen.head'_iff.mp hztop
      cases hz.symm.trans hz'
      have hreg : (r.get z.ppid).isSome := by
        rcases reflTransGen_iff_eq_or_transGen.mp hy with he | hy
        · exact he ▸ htop
        · obtain ⟨_,⟨p,hp,-⟩,-⟩ := TransGen.head'_iff.mp hy
          exact Option.isSome_iff_exists.mpr ⟨p,hp⟩
      have hlt := ho.ppid_lt hz
      have hlt' : z.pid < j := hcz ▸ ho.ppid_lt hc
      refine hup z.ppid ⟨_,hget,?_⟩ (hlt.trans hlt') hlt.ne hy
      rw [adoptedBy,if_pos ⟨hcz,hmoved hztop j c hc hcz,hreg⟩]
      refine ⟨rfl,?_⟩
      change c.pid ≠ z.ppid
      rw [get_pid hc]
      omega
    · refine hup c.ppid ⟨_,hget,?_⟩ (ho.ppid_lt hc) hcz hi
      rw [adoptedBy,if_neg (fun h => hcz h.1)]
      exact ⟨rfl,hself⟩

/-- What a scan has kept of the table it started with. -/
structure Scanned (r r' : Registry) : Prop where
  entry : ∀ j p', r'.get j = some p' → ∃ p, r.get j = some p ∧ p'.user = p.user ∧ p'.state = p.state ∧
    (p.state = .dead → p'.ppid = p.ppid)
  below : ∀ j i, TransGen r'.ChildOf j i → TransGen r.ChildOf j i
  ordered : r'.Ordered

lemma Ordered.scanned (ho : r.Ordered) : Scanned r r :=
  ⟨fun _ p hp => ⟨p,hp,rfl,rfl,fun _ => rfl⟩,fun _ _ h => h,ho⟩

lemma Scanned.reap {r' : Registry} (h : Scanned r r') {now : ℤ} {childOrder : List ℕ} {z : Process}
    (hz : r'.get z.pid = some z) (hall : ∀ j, (r'.get j).isSome → j ∈ childOrder) :
    Scanned r (r'.reap now childOrder z) := by
  refine ⟨fun j p' hp' => ?_,fun j i hji => ?_,h.ordered.reap hz hall⟩
  · rw [get_reap hall] at hp'
    split_ifs at hp'
    obtain ⟨c,hc,rfl⟩ := Option.map_eq_some_iff.mp hp'
    obtain ⟨p,hp,huser,hstate,hdead⟩ := h.entry j c hc
    refine ⟨p,hp,?_⟩
    unfold adoptedBy
    split_ifs with hm
    · exact ⟨huser,hstate,fun hd => absurd (hstate.trans hd) hm.2.1⟩
    · exact ⟨huser,hstate,hdead⟩
  · apply h.below
    exact TransGen.closed (fun _ _ => childOf_reap h.ordered hz hall) _ _ hji

variable {config : SupervisorConfig} {now : ℤ} {order : List ℕ} {childOrder : ℕ → List ℕ}

lemma Ordered.scanned_reapZombies (ho : r.Ordered) (hc : ∀ k ∈ order, r.Enumerates (childOrder k)) :
    Scanned r (r.reapZombies config now order childOrder) := by
  apply reapZombies_induction hc (Scanned r) ho.scanned
  intro r' k z h hz _ hall
  obtain rfl := get_pid hz
  exact h.reap hz hall

/-- A dead process stands directly below one that is not there any more. -/
def LeftBehind (r r' : Registry) (top : ℕ) : Prop :=
  ∃ z, TransGen r.ChildOf z top ∧ r'.get z = none ∧
    ∃ j c, r.get j = some c ∧ c.ppid = z ∧ c.state = .dead

/-- A scan that leaves no dead process behind keeps the descendants of every process that it keeps. -/
theorem descends_reapZombies (ho : r.Ordered) (hc : ∀ k ∈ order, r.Enumerates (childOrder k)) {top : ℕ}
    (hsafe : ¬r.LeftBehind (r.reapZombies config now order childOrder) top) {j : ℕ}
    (h : TransGen r.ChildOf j top) (hj : ((r.reapZombies config now order childOrder).get j).isSome)
    (htop : ((r.reapZombies config now order childOrder).get top).isSome) :
    TransGen (r.reapZombies config now order childOrder).ChildOf j top := by
  have hscan : Scanned r (r.reapZombies config now order childOrder) ∧
      (r.LeftBehind (r.reapZombies config now order childOrder) top ∨
        ∀ j, TransGen r.ChildOf j top → ((r.reapZombies config now order childOrder).get j).isSome →
          ((r.reapZombies config now order childOrder).get top).isSome →
          TransGen (r.reapZombies config now order childOrder).ChildOf j top) := by
    refine reapZombies_induction hc (fun r' => Scanned r r' ∧ (r.LeftBehind r' top ∨
      ∀ j, TransGen r.ChildOf j top → (r'.get j).isSome → (r'.get top).isSome →
        TransGen r'.ChildOf j top)) ⟨ho.scanned,.inr (fun _ h _ _ => h)⟩ ?_
    rintro r' k z ⟨hscanned,hcases⟩ hz _ hall
    obtain rfl := get_pid hz
    refine ⟨hscanned.reap hz hall,?_⟩
    rcases hcases with ⟨y,hy,hgone,hdead⟩ | hkept
    · refine .inl ⟨y,hy,?_,hdead⟩
      rw [get_reap hall,hgone]
      split_ifs <;> rfl
    by_cases hcut : TransGen r'.ChildOf z.pid top ∧
        ∃ j c, r'.get j = some c ∧ c.ppid = z.pid ∧ c.state = .dead
    · obtain ⟨hztop,j,c,hc,hppid,hdead⟩ := hcut
      obtain ⟨p,hp,-,hstate,hsame⟩ := hscanned.entry j c hc
      have hpdead := hstate.symm.trans hdead
      refine .inl ⟨z.pid,hscanned.below _ _ hztop,?_,j,p,hp,(hsame hpdead).symm.trans hppid,hpdead⟩
      rw [get_reap hall,if_pos rfl]
    · refine .inr (fun j hjtop hj htop => ?_)
      rw [get_reap hall] at hj htop
      split_ifs at hj with hjz
      · cases hj
      split_ifs at htop with htz
      · cases htop
      rw [Option.isSome_map] at hj htop
      refine descends_reap hscanned.ordered hz hall htop (Ne.symm htz) ?_ hjz (hkept j hjtop hj htop)
      exact fun hztop i c hc hppid hdead => hcut ⟨hztop,i,c,hc,hppid,hdead⟩
  exact (hscan.2.resolve_left hsafe) j h hj htop

end Registry

namespace Archive
open SharedMemory
variable {a : Archive} {r : Registry} {readerPID : ℕ} {art : Artifact}

/-- The reader gets the artifact by its identifier and, unless it was replaced, by its key and in every
listing with a prefix of the key. -/
structure CanRead (a : Archive) (r : Registry) (readerPID : ℕ) (art : Artifact) : Prop where
  getByID : ∀ v : r.Visits, a.memory.getByID r v.order readerPID art.id = some (.ok art)
  get : a.memory.byKey.get art.key = some art →
    ∀ v : r.Visits, a.memory.get r v.order readerPID art.key = some (.ok art)
  list : a.memory.byKey.get art.key = some art →
    ∀ keys (visits : String → r.Visits) pre, a.memory.byKey.Enumerates keys → bytes pre <+: bytes art.key →
      ∃ result, a.memory.list r keys (fun key => (visits key).order) readerPID pre = some result ∧
        art ∈ result

lemma checkAccess_of_mayRead (ho : r.Ordered) (h : MayRead r readerPID art) (v : r.Visits) :
    checkAccess r v.order readerPID art = some (.ok ()) := by
  obtain ⟨result,hresult⟩ := Option.isSome_iff_exists.mp
    (isSome_checkAccess_of_ordered ho v.order)
  rw [hresult,(checkAccess_ok_iff v hresult).mpr h]

lemma canRead_of_mayRead (ho : r.Ordered) (hid : a.memory.byID.get art.id = some art)
    (h : MayRead r readerPID art) : a.CanRead r readerPID art := by
  refine ⟨fun v => ?_,fun hkey v => ?_,fun hkey keys visits pre hkeys hpre => ?_⟩
  · exact read_eq_ok_iff.mpr ⟨hid,checkAccess_of_mayRead ho h v⟩
  · exact read_eq_ok_iff.mpr ⟨hkey,checkAccess_of_mayRead ho h v⟩
  · obtain ⟨result,hresult⟩ := Option.isSome_iff_exists.mp
      (isSome_list_of_ordered ho visits keys readerPID pre)
    refine ⟨result,hresult,(mem_of_list hresult).mpr ⟨art.key,?_,hkey,hpre,?_⟩⟩
    · exact (hkeys.mem_iff art.key).mpr (Option.isSome_iff_exists.mpr ⟨art,hkey⟩)
    · exact checkAccess_of_mayRead ho h (visits art.key)

end Archive

/-- The running kernel with its shared memory. -/
structure Depot where
  system : System
  archive : Archive

inductive DepotOp
  | kernel (op : KernelOp)
  | store (now : ℤ) (storerPID : ℕ) (key : String) (content : List UInt8) (contentType : String)
      (visibility : Visibility)
  | delete (callerPID : ℕ) (key : String)

namespace Depot

def registry (d : Depot) : Registry := d.system.king.registry

def boot (cfg : Config) (now : ℤ) (runtime : Option RuntimeManager) : Depot :=
  ⟨System.boot cfg now runtime,.new⟩

def step (d : Depot) : DepotOp → Option Depot
  | .kernel op => (d.system.step op).map (fun system => ⟨system,d.archive⟩)
  | .store now storerPID key content contentType visibility =>
    (d.archive.step (.store d.registry now storerPID key content contentType visibility)).map
      (fun archive => ⟨d.system,archive⟩)
  | .delete callerPID key =>
    (d.archive.step (.delete d.registry callerPID key)).map (fun archive => ⟨d.system,archive⟩)

/-- A scan takes away the storer of an artifact that is still there, or, where the descendants of the
storer may read it, leaves a dead one of them behind. -/
def CutsOff (art : Artifact) (d : Depot) : DepotOp → Prop
  | .kernel (.reapZombies now order childOrder) =>
    let after := d.registry.reapZombies d.system.king.supervisor.config now order childOrder
    (d.archive.memory.byID.get art.id = some art ∧ after.get art.storedByPID = none) ∨
      (art.visibility = .visSubtree ∧ d.registry.LeftBehind after art.storedByPID)
  | _ => False

variable {d d' : Depot} {op : DepotOp} {art : Artifact}

/-- A step is one of the kernel, or one of the memory under the table as it is. -/
lemma step_cases (hs : d.step op = some d') :
    (∃ kop, op = .kernel kop ∧ d.system.step kop = some d'.system ∧ d'.archive = d.archive) ∨
    (d'.system = d.system ∧ ∃ mop, d.archive.step mop = some d'.archive ∧
      ∀ r now storerPID key content contentType visibility,
        mop = .store r now storerPID key content contentType visibility → r = d.registry) := by
  cases op with
  | kernel kop =>
    obtain ⟨system,hsystem,rfl⟩ := Option.map_eq_some_iff.mp hs
    exact .inl ⟨kop,rfl,hsystem,rfl⟩
  | store now storerPID key content contentType visibility =>
    obtain ⟨archive,harchive,rfl⟩ := Option.map_eq_some_iff.mp hs
    refine .inr ⟨rfl,_,harchive,?_⟩
    intro _ _ _ _ _ _ _ he
    cases he
    rfl
  | delete callerPID key =>
    simp only [step] at hs
    obtain ⟨archive,harchive,rfl⟩ := Option.map_eq_some_iff.mp hs
    refine .inr ⟨rfl,_,harchive,?_⟩
    intro _ _ _ _ _ _ _ he
    cases he

/-- An entry after a step of the kernel belongs to a new process or has the user it had before. -/
lemma entry_step {s s' : System} {kop : KernelOp} (ho : s.king.registry.Ordered)
    (hs : s.step kop = some s') {j : ℕ} {p' : Process} (hp' : s'.king.registry.get j = some p') :
    s.king.registry.nextPID ≤ j ∨ ∃ p, s.king.registry.get j = some p ∧ p'.user = p.user := by
  rcases System.step_table hs with ⟨now,launch,req,-,rfl⟩ | ⟨now,order,childOrder,-,he,rfl⟩ | hrw
  · rcases System.get_spawnChild s.king now launch req with hget | ⟨parent,child,-,-,-,-,hget⟩
    · exact .inr ⟨p',(hget j).symm.trans hp',rfl⟩
    · rw [hget] at hp'
      split_ifs at hp' with hj
      · exact .inl hj.ge
      · exact .inr ⟨p',hp',rfl⟩
  · obtain ⟨p,hp,huser,-⟩ := (ho.scanned_reapZombies he).entry j p' hp'
    exact .inr ⟨p,hp,huser⟩
  · obtain ⟨p,hp,hf,-⟩ := System.rewritten_ppid hrw j p' hp'
    exact .inr ⟨p,hp,hf.user⟩

/-- A step of the kernel that does not cut off keeps the storer of an artifact that is there. -/
lemma storer_step {kop : KernelOp} {s' : System} (hsafe : ¬CutsOff art d (.kernel kop))
    (hs : d.system.step kop = some s') (hid : d.archive.memory.byID.get art.id = some art)
    (hstorer : (d.registry.get art.storedByPID).isSome) :
    (s'.king.registry.get art.storedByPID).isSome := by
  obtain ⟨p,hp⟩ := Option.isSome_iff_exists.mp hstorer
  rcases System.step_table hs with ⟨now,launch,req,-,rfl⟩ | ⟨now,order,childOrder,rfl,he,rfl⟩ | hrw
  · rcases System.get_spawnChild d.system.king now launch req with hget | ⟨parent,child,-,-,-,-,hget⟩
    · rw [hget]
      exact hstorer
    · rw [hget]
      split_ifs
      · rfl
      · exact hstorer
  · by_contra hgone
    exact hsafe (.inl ⟨hid,Option.not_isSome_iff_eq_none.mp hgone⟩)
  · rw [(hrw art.storedByPID).isSome]
    exact hstorer

/-- Such a step also keeps whoever is registered below the storer. -/
lemma descends_step {kop : KernelOp} {s' : System} (hvis : art.visibility = .visSubtree)
    (ho : d.registry.Ordered) (hsafe : ¬CutsOff art d (.kernel kop)) (hs : d.system.step kop = some s')
    {j : ℕ} (h : TransGen d.registry.ChildOf j art.storedByPID)
    (hj : (s'.king.registry.get j).isSome) (htop : (s'.king.registry.get art.storedByPID).isSome) :
    TransGen s'.king.registry.ChildOf j art.storedByPID := by
  rcases System.step_table hs with ⟨now,launch,req,-,rfl⟩ | ⟨now,order,childOrder,rfl,he,rfl⟩ | hrw
  · refine TransGen.mono (fun i k hik => ?_) _ _ h
    obtain ⟨p,hp,hchild⟩ := hik
    refine ⟨p,?_,hchild⟩
    rcases System.get_spawnChild d.system.king now launch req with hget | ⟨parent,child,-,-,-,-,hget⟩
    · rw [hget]
      exact hp
    · have hold : i ≠ d.system.king.registry.nextPID := (Registry.get_bound hp).2.ne
      rw [hget,if_neg hold]
      exact hp
  · exact Registry.descends_reapZombies ho he (fun hleft => hsafe (.inr ⟨hvis,hleft⟩)) h hj htop
  · refine TransGen.mono (fun i k hik => ?_) _ _ h
    obtain ⟨p,hp,hppid,hself⟩ := hik
    have hi := hrw i
    rw [show d.system.king.registry.get i = some p from hp] at hi
    obtain ⟨p',hp',hf,-⟩ := hi
    exact ⟨p',hp',hf.ppid.trans hppid,hf.pid.trans_ne hself⟩

/-- What holds of the artifact in every state of a run that does not cut off. -/
structure Tracked (art : Artifact) (d : Depot) : Prop where
  kept : d.archive.Kept
  ordered : d.registry.Ordered
  storer : d.archive.memory.byID.get art.id = some art → (d.registry.get art.storedByPID).isSome

lemma tracked_boot (art : Artifact) (cfg : Config) (now : ℤ) (runtime : Option RuntimeManager) :
    (boot cfg now runtime).Tracked art := by
  refine ⟨Archive.kept_new,System.ordered_boot cfg now runtime,fun hid => ?_⟩
  cases hid

lemma tracked_step (h : d.Tracked art) (hsafe : ¬CutsOff art d op) (hs : d.step op = some d') :
    d'.Tracked art := by
  rcases step_cases hs with ⟨kop,rfl,hsystem,harchive⟩ | ⟨hsystem,mop,harchive,hr⟩
  · refine ⟨harchive ▸ h.kept,System.ordered_step h.ordered hsystem,fun hid => ?_⟩
    rw [harchive] at hid
    exact storer_step hsafe hsystem hid (h.storer hid)
  · refine ⟨Archive.kept_step h.kept harchive,?_,fun hid => ?_⟩
    · rw [registry,hsystem]
      exact h.ordered
    · rw [registry,hsystem]
      rcases Archive.step_cases harchive with he |
        ⟨r,now,storerPID,key,content,contentType,visibility,rfl,hstorer,he⟩ |
        ⟨r,callerPID,key,art',-,-,-,he⟩
      · rw [he] at hid
        exact h.storer hid
      · rw [he] at hid
        rcases Table.get_set_some hid with ⟨-,rfl⟩ | ⟨-,hid⟩
        · rw [hr _ _ _ _ _ _ _ rfl] at hstorer
          exact hstorer
        · exact h.storer hid
      · rw [he] at hid
        exact h.storer (Table.get_erase_some hid).2

/-- The user of a process never changes, and its PID is never given to another one. -/
structure HasUser (j : ℕ) (user : String) (d : Depot) : Prop where
  old : j < d.registry.nextPID
  user : ∀ p, d.registry.get j = some p → p.user = user

lemma hasUser_step {j : ℕ} {user : String} (ho : d.registry.Ordered) (h : d.HasUser j user)
    (hs : d.step op = some d') : d'.HasUser j user := by
  rcases step_cases hs with ⟨kop,-,hsystem,-⟩ | ⟨hsystem,-⟩
  · refine ⟨h.old.trans_le (System.nextPID_le_step hsystem),fun p' hp' => ?_⟩
    rcases entry_step ho hsystem hp' with hnew | ⟨p,hp,huser⟩
    · exact absurd h.old (not_lt.mpr hnew)
    · exact huser.trans (h.user p hp)
  · obtain ⟨hold,huser⟩ := h
    rw [registry,← hsystem] at hold huser
    exact ⟨hold,huser⟩

/-- While both are registered, the process stays below the storer. -/
structure Below (art : Artifact) (j : ℕ) (d : Depot) : Prop where
  old : j < d.registry.nextPID ∧ art.storedByPID < d.registry.nextPID
  descends : (d.registry.get j).isSome → (d.registry.get art.storedByPID).isSome →
    TransGen d.registry.ChildOf j art.storedByPID

lemma below_step {j : ℕ} (hvis : art.visibility = .visSubtree) (ho : d.registry.Ordered)
    (h : d.Below art j) (hsafe : ¬CutsOff art d op) (hs : d.step op = some d') : d'.Below art j := by
  rcases step_cases hs with ⟨kop,rfl,hsystem,-⟩ | ⟨hsystem,-⟩
  · have hmono := System.nextPID_le_step hsystem
    have hback : ∀ i, i < d.registry.nextPID → (d'.registry.get i).isSome → (d.registry.get i).isSome := by
      intro i hi hsome
      obtain ⟨p',hp'⟩ := Option.isSome_iff_exists.mp hsome
      rcases entry_step ho hsystem hp' with hnew | ⟨p,hp,-⟩
      · exact absurd hi (not_lt.mpr hnew)
      · exact Option.isSome_iff_exists.mpr ⟨p,hp⟩
    refine ⟨⟨h.old.1.trans_le hmono,h.old.2.trans_le hmono⟩,fun hj htop => ?_⟩
    exact descends_step hvis ho hsafe hsystem
      (h.descends (hback j h.old.1 hj) (hback art.storedByPID h.old.2 htop)) hj htop
  · obtain ⟨hold,hdescends⟩ := h
    rw [registry,← hsystem] at hold hdescends
    exact ⟨hold,hdescends⟩

lemma tracked_of_run {cfg : Config} {now : ℤ} {runtime : Option RuntimeManager}
    {trace : List (Transition Depot DepotOp)} (run : Run step (boot cfg now runtime) trace d)
    (hsafe : ∀ e ∈ trace, ¬CutsOff art e.source e.label) : d.Tracked art :=
  (run.invariant_of_allowed
    (fun s op _ (h : s.Tracked art) (ha : ¬CutsOff art s op) hs => tracked_step h ha hs)
    (tracked_boot art cfg now runtime) hsafe).2

/-- In every run that does not cut off the artifact: as long as it is there, exactly the processes with
the user of its storer can read it, or every process that was once below the storer can. -/
theorem visibility_of_run {cfg : Config} {now : ℤ} {runtime : Option RuntimeManager}
    {trace : List (Transition Depot DepotOp)} (run : Run step (boot cfg now runtime) trace d)
    (hsafe : ∀ e ∈ trace, ¬CutsOff art e.source e.label)
    (hid : d.archive.memory.byID.get art.id = some art) :
    (art.visibility = .visUser → ∀ m, (m = boot cfg now runtime ∨ ∃ e ∈ trace, m = e.target) →
      ∀ storer, m.registry.get art.storedByPID = some storer → ∀ pid,
        ((∃ p, d.registry.get pid = some p ∧ p.user = storer.user) → d.archive.CanRead d.registry pid art) ∧
        (¬(∃ p, d.registry.get pid = some p ∧ p.user = storer.user) →
          d.archive.Hidden d.registry pid art)) ∧
    (art.visibility = .visSubtree → ∀ m, (m = boot cfg now runtime ∨ ∃ e ∈ trace, m = e.target) →
      ∀ pid, (m.registry.get pid).isSome → (m.registry.get art.storedByPID).isSome →
        TransGen m.registry.ChildOf pid art.storedByPID → (d.registry.get pid).isSome →
        d.archive.CanRead d.registry pid art) := by
  have hd := tracked_of_run run hsafe
  constructor
  · intro hvis m hm storer hstorer pid
    obtain ⟨before,later,rfl,hbefore,hlater⟩ := run.cut hm
    have hstart := tracked_of_run hbefore (fun e he => hsafe e (List.mem_append_left _ he))
    have hboth := (hlater.invariant_of_allowed
      (fun s op _ (h : s.Tracked art ∧ s.HasUser art.storedByPID storer.user)
          (ha : ¬CutsOff art s op) hs =>
        ⟨tracked_step h.1 ha hs,hasUser_step h.1.ordered h.2 hs⟩)
      ⟨hstart,(Registry.get_bound hstorer).2,fun p hp => by rw [Option.some.inj (hp.symm.trans hstorer)]⟩
      (fun e he => hsafe e (List.mem_append_right _ he))).2
    obtain ⟨storer',hstorer'⟩ := Option.isSome_iff_exists.mp (hd.storer hid)
    have huser := hboth.2.user storer' hstorer'
    have hmay : MayRead d.registry pid art ↔
        ∃ p, d.registry.get pid = some p ∧ p.user = storer.user := by
      simp only [MayRead,hvis,hstorer',Option.some.injEq,exists_and_left,exists_eq_left',huser]
    constructor
    · intro hreader
      exact Archive.canRead_of_mayRead hd.ordered hid (hmay.mpr hreader)
    · intro hno
      exact hd.kept.hidden (fun _ _ => fun h => hno (hmay.mp h))
  · intro hvis m hm pid hpid htop hdescends hregistered
    obtain ⟨before,later,rfl,hbefore,hlater⟩ := run.cut hm
    have hstart := tracked_of_run hbefore (fun e he => hsafe e (List.mem_append_left _ he))
    obtain ⟨p,hp⟩ := Option.isSome_iff_exists.mp hpid
    obtain ⟨storer,hstorer⟩ := Option.isSome_iff_exists.mp htop
    have hboth := (hlater.invariant_of_allowed
      (fun s op t (h : s.Tracked art ∧ s.Below art pid) (ha : ¬CutsOff art s op) hs =>
        ⟨tracked_step h.1 ha hs,below_step hvis h.1.ordered h.2 ha hs⟩)
      ⟨hstart,⟨(Registry.get_bound hp).2,(Registry.get_bound hstorer).2⟩,fun _ _ => hdescends⟩
      (fun e he => hsafe e (List.mem_append_right _ he))).2
    apply Archive.canRead_of_mayRead hd.ordered hid
    simp only [MayRead,hvis]
    exact .inr (hboth.2.descends hregistered (hd.storer hid))

/-- A lead with a worker, and an agent of the same user. The lead leaves a plan for that user. -/
def household : List DepotOp :=
  [.kernel (.spawnChild 0 (.ok "") { Registry.agentRequest 1 "lead" .lead with user := "leo" }),
    .kernel (.spawnChild 0 (.ok "") { Registry.agentRequest 1 "agent" .agent with user := "leo" }),
    .kernel (.spawnChild 0 (.ok "") (Registry.agentRequest 2 "worker" .worker)),
    .store 0 2 "plan" [] "text/plain" .visUser]

def plan : Artifact := ⟨"art-1","plan",[],"text/plain",.visUser,2,0⟩

def killed (now : ℤ) (target : ℕ) : DepotOp := .kernel (.handleKill now (fun _ => [1,2,3,4]) 1 target false)

def scan (now : ℤ) : DepotOp := .kernel (.reapZombies now [1,2,3,4] (fun _ => [1,2,3,4]))

/-- The lead is killed and the agent is reaped; the worker still reads the plan. -/
theorem visibility_of_run_worker : ∃ trace d, Run step (boot King.exampleConfig 0 none) trace d ∧
    d.registry.get 3 = none ∧ d.archive.CanRead d.registry 4 plan := by
  obtain ⟨s,t,d,lead,worker,hs,ht,hd,hlead,h3,hworker,huser,hstays,hid⟩ : ∃ s t d lead worker,
      exec step (household++[killed 0 3]) (boot King.exampleConfig 0 none) = some s ∧
      step s (killed (60*second) 2) = some t ∧ step t (scan (61*second)) = some d ∧
      t.registry.get 2 = some lead ∧ d.registry.get 3 = none ∧ d.registry.get 4 = some worker ∧
      worker.user = lead.user ∧
      (t.registry.reapZombies t.system.king.supervisor.config (61*second) [1,2,3,4]
        (fun _ => [1,2,3,4])).get 2 ≠ none ∧ d.archive.memory.byID.get "art-1" = some plan := by
    refine ⟨_,_,_,_,_,rfl,rfl,rfl,rfl,rfl,rfl,rfl,by decide,rfl⟩
  have hrun := ((Run.of_exec hs).snoc ht).snoc hd
  have hsafe : ∀ op ∈ household++[killed 0 3], ∀ s, ¬CutsOff plan s op := by
    simp [household,killed,CutsOff]
  refine ⟨_,d,hrun,h3,?_⟩
  refine (((visibility_of_run hrun ?_ hid).1 rfl t (.inr ⟨⟨s,killed (60*second) 2,t⟩,by simp,rfl⟩)) lead hlead 4).1
    ⟨worker,hworker,huser⟩
  intro e he
  simp only [List.mem_append,List.mem_singleton] at he
  rcases he with (he | rfl) | rfl
  · exact hsafe _ (label_mem_of_mem_transitions he) _
  · exact id
  · rintro (⟨-,hgone⟩ | ⟨hvis,-⟩)
    · exact hstays hgone
    · cases hvis

/-- After the lead has been reaped, nobody of its user can read what it stored for them. -/
theorem reaped_storer_hides_plan : ¬∀ (cfg : Config) (now : ℤ) (runtime : Option RuntimeManager)
    (trace : List (Transition Depot DepotOp)) (d : Depot) (art : Artifact),
    Run step (boot cfg now runtime) trace d → d.archive.memory.byID.get art.id = some art →
    art.visibility = .visUser → ∀ e ∈ trace, ∀ storer, e.target.registry.get art.storedByPID = some storer →
      ∀ pid p, d.registry.get pid = some p → p.user = storer.user → ∀ v : d.registry.Visits,
        d.archive.memory.getByID d.registry v.order pid art.id = some (.ok art) := by
  intro h
  obtain ⟨s,t,d,lead,agent,hs,ht,hd,hlead,hagent,huser,hstays,hkeys,hread⟩ : ∃ s t d lead agent,
      exec step household (boot King.exampleConfig 0 none) = some s ∧
      step s (killed 0 2) = some t ∧ step t (scan (61*second)) = some d ∧
      t.registry.get 2 = some lead ∧ d.registry.get 3 = some agent ∧ agent.user = lead.user ∧
      d.archive.memory.byID.get "art-1" = some plan ∧ d.registry.Enumerates [1,3,4] ∧
      d.archive.memory.getByID d.registry (fun _ => [1,3,4]) 3 "art-1" ≠ some (.ok plan) := by
    refine ⟨_,_,_,_,_,rfl,rfl,rfl,rfl,rfl,rfl,rfl,by decide,by decide⟩
  have hrun := ((Run.of_exec hs).snoc ht).snoc hd
  exact hread (h _ _ _ _ d plan hrun hstays rfl ⟨s,killed 0 2,t⟩ (by simp) lead hlead 3 agent hagent huser
    ⟨fun _ => [1,3,4],fun _ => hkeys⟩)

end Depot
end HiveKernel
