import HiveKernel.Ipc.SharedMemory
import HiveKernel.Lib.Run
import HiveKernel.Process.TreeInvariant

/-! The two indexes of the shared memory over a history of calls. The index of keys holds the latest
artifact of a key, the index of identifiers also those that a later one has replaced. A deletion takes
the latest artifact from both of them, and leaves the replaced ones. -/
namespace HiveKernel
open Lib

/-- What the visibilities mean. -/
def MayRead (r : Registry) (readerPID : ℕ) (art : Artifact) : Prop :=
  match art.visibility with
  | .visGlobal => True
  | .visPrivate => readerPID = art.storedByPID
  | .visUser => ∃ reader storer, r.get readerPID = some reader ∧ r.get art.storedByPID = some storer ∧
      reader.user = storer.user
  | .visSubtree => readerPID = art.storedByPID ∨ Relation.TransGen r.ChildOf readerPID art.storedByPID
  | .unknown _ => False

/-- Somebody may read it. -/
def Visibility.Known : Visibility → Prop
  | .unknown _ => False
  | _ => True

namespace SharedMemory
variable {sm : SharedMemory} {r : Registry} {readerPID : ℕ} {art : Artifact}

lemma checkAccess_ok_iff (v : r.Visits) {result : Except String Unit}
    (h : checkAccess r v.order readerPID art = some result) : result = .ok () ↔ MayRead r readerPID art := by
  unfold checkAccess at h
  unfold MayRead
  cases hvis : art.visibility with
  | visGlobal =>
    simp only [hvis] at h
    cases h
    simp
  | visPrivate =>
    simp only [hvis] at h
    split_ifs at h with hne
    · cases h
      simp [hne]
    · cases h
      simp [not_not.mp hne]
  | visUser =>
    simp only [hvis] at h
    split at h
    next hreader =>
      cases h
      simp [hreader]
    next reader hreader =>
      split at h
      next hstorer =>
        cases h
        simp [hstorer]
      next storer hstorer =>
        split_ifs at h with huser
        · cases h
          simp [hreader,hstorer,huser]
        · cases h
          simp [hreader,hstorer,not_not.mp huser]
  | visSubtree =>
    simp only [hvis] at h
    split_ifs at h with hself
    · cases h
      simp [hself]
    · obtain ⟨descendants,hd,hres⟩ := Option.map_eq_some_iff.mp h
      have hmem := Registry.mem_collectDescendants_iff v hd readerPID
      simp only [hself,false_or,← hmem]
      split_ifs at hres with hin
      · cases hres
        simp [hin]
      · cases hres
        simp [hin]
  | unknown code =>
    simp only [hvis] at h
    cases h
    simp

/-- The check returns unless it has to walk over the descendants of the storer and that does not end. -/
lemma isSome_checkAccess_iff (order : List ℕ → List ℕ) :
    (checkAccess r order readerPID art).isSome ↔ (art.visibility = .visSubtree → readerPID ≠ art.storedByPID →
      (r.getDescendants order art.storedByPID).isSome) := by
  unfold checkAccess
  cases hvis : art.visibility with
  | visGlobal => simp
  | visPrivate =>
    simp only
    split_ifs <;> simp
  | visUser =>
    simp only
    split
    · simp
    · split
      · simp
      · split_ifs <;> simp
  | visSubtree =>
    simp only
    split_ifs with hself
    · simp [hself]
    · simp [hself]
  | unknown code => simp

lemma isSome_checkAccess_visits (v v' : r.Visits) (h : (checkAccess r v.order readerPID art).isSome) :
    (checkAccess r v'.order readerPID art).isSome := by
  rw [isSome_checkAccess_iff] at h ⊢
  intro hvis hne
  exact Registry.isSome_collectDescendants_visits v v' (h hvis hne)

lemma isSome_checkAccess_of_ordered (ho : r.Ordered) (order : List ℕ → List ℕ) :
    (checkAccess r order readerPID art).isSome := by
  rw [isSome_checkAccess_iff]
  intro _ _
  exact (ho.walksReturn le_rfl).collectDescendants order [] art.storedByPID

lemma read_eq_none_iff {found : Option Artifact} {order : List ℕ → List ℕ} {name : String} :
    read found r order readerPID name = none ↔ ∃ art, found = some art ∧
      checkAccess r order readerPID art = none := by
  cases found with
  | none => simp [read]
  | some art => simp [read]

lemma read_eq_ok_iff {found : Option Artifact} {order : List ℕ → List ℕ} {name : String} :
    read found r order readerPID name = some (.ok art) ↔ found = some art ∧
      checkAccess r order readerPID art = some (.ok ()) := by
  cases found with
  | none => simp [read]
  | some art' =>
    simp only [read,Option.map_eq_some_iff,Option.some.injEq]
    constructor
    · rintro ⟨result,hresult,he⟩
      cases result with
      | error e => cases he
      | ok u =>
        cases he
        exact ⟨rfl,hresult⟩
    · rintro ⟨rfl,hresult⟩
      exact ⟨.ok (),hresult,rfl⟩

lemma hasPrefix_iff {s pre : String} : hasPrefix s pre = true ↔ bytes pre <+: bytes s := by
  simp only [hasPrefix,Bool.and_eq_true,decide_eq_true_eq]
  constructor
  · rintro ⟨-,heq⟩
    exact List.prefix_iff_eq_take.mpr heq.symm
  · intro h
    exact ⟨h.length_le,(List.prefix_iff_eq_take.mp h).symm⟩

/-- The loop passes over an artifact exactly if its key does not start with the prefix. -/
lemma skipped_iff {key pre : String} :
    (pre ≠ "" ∧ hasPrefix key pre = false) ↔ ¬bytes pre <+: bytes key := by
  rw [← hasPrefix_iff,Bool.not_eq_true]
  constructor
  · exact fun h => h.2
  · intro h
    refine ⟨?_,h⟩
    rintro rfl
    have hempty : hasPrefix key "" = true := hasPrefix_iff.mpr List.nil_prefix
    rw [h] at hempty
    cases hempty

lemma listed_of_not {order : List ℕ → List ℕ} {pre : String} (h : ¬bytes pre <+: bytes art.key) :
    listed r order readerPID pre art = some none := by
  unfold listed
  rw [if_pos (skipped_iff.mpr h)]

lemma listed_eq_none_iff {order : List ℕ → List ℕ} {pre : String} :
    listed r order readerPID pre art = none ↔ bytes pre <+: bytes art.key ∧
      checkAccess r order readerPID art = none := by
  by_cases hpre : bytes pre <+: bytes art.key
  · unfold listed
    rw [if_neg (fun h => skipped_iff.mp h hpre)]
    simp [hpre]
  · simp [listed_of_not hpre,hpre]

lemma listed_eq_some_iff {order : List ℕ → List ℕ} {pre : String} {art' : Artifact} :
    listed r order readerPID pre art = some (some art') ↔ art' = art ∧ bytes pre <+: bytes art.key ∧
      checkAccess r order readerPID art = some (.ok ()) := by
  by_cases hpre : bytes pre <+: bytes art.key
  · unfold listed
    rw [if_neg (fun h => skipped_iff.mp h hpre)]
    simp only [Option.map_eq_some_iff,hpre,true_and]
    constructor
    · rintro ⟨result,hresult,he⟩
      cases result with
      | error e => cases he
      | ok u =>
        cases he
        exact ⟨rfl,hresult⟩
    · rintro ⟨rfl,hresult⟩
      exact ⟨.ok (),hresult,rfl⟩
  · simp [listed_of_not hpre,hpre]

/-- The loop over all keys: what it finds, and when it does not end. -/
lemma list_eq_none_iff {keys : List String} {order : String → List ℕ → List ℕ} {pre : String} :
    sm.list r keys order readerPID pre = none ↔ ∃ key art, key ∈ keys ∧ sm.byKey.get key = some art ∧
      bytes pre <+: bytes art.key ∧ checkAccess r (order art.key) readerPID art = none := by
  unfold list
  rw [Option.map_eq_none_iff,← Option.not_isSome_iff_eq_none,mapM_isSome_iff]
  simp only [List.mem_filterMap,not_forall,Option.not_isSome_iff_eq_none,listed_eq_none_iff]
  constructor
  · rintro ⟨art,⟨key,hkey,hart⟩,hpre,hnone⟩
    exact ⟨key,art,hkey,hart,hpre,hnone⟩
  · rintro ⟨key,art,hkey,hart,hpre,hnone⟩
    exact ⟨art,⟨key,hkey,hart⟩,hpre,hnone⟩

lemma list_eq_some {keys : List String} {order : String → List ℕ → List ℕ} {pre : String}
    {result : List Artifact} (h : sm.list r keys order readerPID pre = some result) :
    result = (keys.filterMap sm.byKey.get).filterMap
      (fun art => (listed r (order art.key) readerPID pre art).join) := by
  obtain ⟨found,hfound,rfl⟩ := Option.map_eq_some_iff.mp h
  rw [(eq_filterMap_of_mapM _ hfound).2,List.filterMap_filterMap]
  apply List.filterMap_congr
  intro art _
  cases listed r (order art.key) readerPID pre art with
  | none => rfl
  | some found => rfl

lemma mem_of_list {keys : List String} {order : String → List ℕ → List ℕ} {pre : String}
    {result : List Artifact} (h : sm.list r keys order readerPID pre = some result) :
    art ∈ result ↔ ∃ key, key ∈ keys ∧ sm.byKey.get key = some art ∧ bytes pre <+: bytes art.key ∧
      checkAccess r (order art.key) readerPID art = some (.ok ()) := by
  rw [list_eq_some h]
  simp only [List.mem_filterMap,Option.join_eq_some_iff,listed_eq_some_iff]
  constructor
  · rintro ⟨art',⟨key,hkey,hart⟩,rfl,hpre,hok⟩
    exact ⟨key,hkey,hart,hpre,hok⟩
  · rintro ⟨key,hkey,hart,hpre,hok⟩
    exact ⟨art,⟨key,hkey,hart⟩,rfl,hpre,hok⟩

lemma isSome_list_of_ordered (ho : r.Ordered) (visits : String → r.Visits) (keys : List String)
    (readerPID : ℕ) (pre : String) :
    (sm.list r keys (fun key => (visits key).order) readerPID pre).isSome := by
  by_contra hno
  obtain ⟨key,art,-,-,-,hnone⟩ := list_eq_none_iff.mp (Option.not_isSome_iff_eq_none.mp hno)
  have hsome : (checkAccess r (visits art.key).order readerPID art).isSome :=
    isSome_checkAccess_of_ordered ho _
  rw [hnone] at hsome
  cases hsome

lemma store_cases (sm : SharedMemory) (r : Registry) (now : ℤ) (storerPID : ℕ) (key : String)
    (content : List UInt8) (contentType : String) (visibility : Visibility) :
    (∃ e, sm.store r now storerPID key content contentType visibility = (.error e,sm)) ∨
    (key ≠ "" ∧ (r.get storerPID).isSome ∧
      sm.store r now storerPID key content contentType visibility = (.ok s!"art-{sm.nextID+1}",
        let art : Artifact :=
          ⟨s!"art-{sm.nextID+1}",key,content,contentType,visibility,storerPID,now⟩
        ⟨sm.byID.set art.id art,sm.byKey.set key art,sm.nextID+1⟩)) := by
  unfold store
  by_cases hkey : key = ""
  · rw [if_pos hkey]
    exact .inl ⟨_,rfl⟩
  · rw [if_neg hkey]
    cases hr : r.get storerPID with
    | none => exact .inl ⟨_,rfl⟩
    | some p => exact .inr ⟨hkey,rfl,rfl⟩

lemma delete_cases (sm : SharedMemory) (r : Registry) (callerPID : ℕ) (key : String) :
    (∃ e, sm.delete r callerPID key = (.error e,sm)) ∨
    ∃ art, sm.byKey.get key = some art ∧ sm.delete r callerPID key =
      (.ok (),{ sm with byKey := sm.byKey.erase key, byID := sm.byID.erase art.id }) := by
  unfold delete
  cases hart : sm.byKey.get key with
  | none => exact .inl ⟨_,rfl⟩
  | some art =>
    simp only
    split_ifs
    · exact .inl ⟨_,rfl⟩
    · exact .inr ⟨art,rfl,rfl⟩

end SharedMemory

/-- The memory with everything that was ever stored, the latest first. No step looks at that. -/
structure Archive where
  memory : SharedMemory
  stored : List Artifact

/-- A call, with the registry as it is at that time. -/
inductive MemoryOp
  | store (r : Registry) (now : ℤ) (storerPID : ℕ) (key : String) (content : List UInt8)
      (contentType : String) (visibility : Visibility)
  | delete (r : Registry) (callerPID : ℕ) (key : String)

namespace Archive
open SharedMemory

def new : Archive := ⟨.new,[]⟩

def step (a : Archive) : MemoryOp → Option Archive
  | .store r now storerPID key content contentType visibility =>
    match a.memory.store r now storerPID key content contentType visibility with
    | (.error _,memory) => some ⟨memory,a.stored⟩
    | (.ok id,memory) =>
      some ⟨memory,⟨id,key,content,contentType,visibility,storerPID,now⟩::a.stored⟩
  | .delete r callerPID key => some ⟨(a.memory.delete r callerPID key).2,a.stored⟩

/-- The artifact that was stored last under a key. -/
def latest (a : Archive) (key : String) : Option Artifact := a.stored.find? (fun art => art.key = key)

variable {a a' : Archive} {op : MemoryOp} {art : Artifact}

/-- Every way a step can go: nothing changes, an artifact with a fresh number is stored, or the latest
artifact of a key is taken from both indexes. -/
lemma step_cases (hs : a.step op = some a') :
    a' = a ∨
    (∃ r now storerPID key content contentType visibility,
      op = .store r now storerPID key content contentType visibility ∧ (r.get storerPID).isSome ∧
      let art : Artifact :=
        ⟨s!"art-{a.memory.nextID+1}",key,content,contentType,visibility,storerPID,now⟩
      a' = ⟨⟨a.memory.byID.set art.id art,a.memory.byKey.set key art,a.memory.nextID+1⟩,art::a.stored⟩) ∨
    ∃ r callerPID key art, op = .delete r callerPID key ∧ a.memory.byKey.get key = some art ∧
      a.memory.delete r callerPID key = (.ok (),a'.memory) ∧
      a' = ⟨{ a.memory with byKey := a.memory.byKey.erase key, byID := a.memory.byID.erase art.id },
        a.stored⟩ := by
  cases op with
  | store r now storerPID key content contentType visibility =>
    simp only [step] at hs
    rcases store_cases a.memory r now storerPID key content contentType visibility with
      ⟨e,he⟩ | ⟨-,hstorer,he⟩
    · rw [he] at hs
      cases hs
      exact .inl rfl
    · rw [he] at hs
      cases hs
      exact .inr (.inl ⟨r,now,storerPID,key,content,contentType,visibility,rfl,hstorer,rfl⟩)
  | delete r callerPID key =>
    simp only [step] at hs
    rcases delete_cases a.memory r callerPID key with ⟨e,he⟩ | ⟨art,hart,he⟩
    · rw [he] at hs
      cases hs
      exact .inl rfl
    · rw [he] at hs
      cases hs
      exact .inr (.inr ⟨r,callerPID,key,art,rfl,hart,he,rfl⟩)

/-- What the calls keep. -/
structure Kept (a : Archive) : Prop where
  numbered : ∀ art ∈ a.stored, ∃ n, n ≤ a.memory.nextID ∧ art.id = s!"art-{n}"
  nodup : (a.stored.map Artifact.id).Nodup
  keys : ∀ key art, a.memory.byKey.get key = some art →
    art.key = key ∧ a.memory.byID.get art.id = some art ∧ a.latest key = some art
  ids : ∀ id art, a.memory.byID.get id = some art → art.id = id ∧ art ∈ a.stored
  storers : ∀ art ∈ a.stored, ∃ r : Registry, (r.get art.storedByPID).isSome

lemma kept_new : new.Kept := by
  refine ⟨?_,List.nodup_nil,?_,?_,?_⟩
  · intro art hart
    cases hart
  · intro key art hart
    cases hart
  · intro id art hart
    cases hart
  · intro art hart
    cases hart

/-- Two artifacts of one number are the same. -/
lemma Kept.eq_of_id (h : a.Kept) {art art' : Artifact} (hart : art ∈ a.stored) (hart' : art' ∈ a.stored)
    (hid : art.id = art'.id) : art = art' := List.inj_on_of_nodup_map h.nodup hart hart' hid

lemma Kept.fresh (h : a.Kept) (hart : art ∈ a.stored) : art.id ≠ s!"art-{a.memory.nextID+1}" := by
  intro hid
  obtain ⟨n,hn,hnum⟩ := h.numbered art hart
  have hsame : n = a.memory.nextID+1 := append_number_injective (hnum.symm.trans hid)
  omega

lemma Kept.store (h : a.Kept) {r : Registry} {storerPID : ℕ} (hstorer : (r.get storerPID).isSome)
    {key contentType : String} {content : List UInt8} {visibility : Visibility} {now : ℤ}
    (hart : art = ⟨s!"art-{a.memory.nextID+1}",key,content,contentType,visibility,storerPID,now⟩) :
    Kept ⟨⟨a.memory.byID.set art.id art,a.memory.byKey.set key art,a.memory.nextID+1⟩,art::a.stored⟩ := by
  have hid : art.id = s!"art-{a.memory.nextID+1}" := by rw [hart]
  have hkey : art.key = key := by rw [hart]
  constructor
  · intro art' hart'
    rcases List.mem_cons.mp hart' with rfl | hart'
    · exact ⟨a.memory.nextID+1,le_rfl,hid⟩
    · obtain ⟨n,hn,hnum⟩ := h.numbered art' hart'
      exact ⟨n,hn.trans (Nat.le_succ _),hnum⟩
  · refine List.nodup_cons.mpr ⟨?_,h.nodup⟩
    intro hmem
    obtain ⟨art',hart',he⟩ := List.mem_map.mp hmem
    exact h.fresh hart' (he.trans hid)
  · intro k art' hk
    rcases Table.get_set_some hk with ⟨rfl,rfl⟩ | ⟨hne,hk⟩
    · refine ⟨hkey,Table.get_set_self _ _ _,?_⟩
      simp [latest,hkey]
    · obtain ⟨hk',hbyID,hlatest⟩ := h.keys k art' hk
      have hidne : art'.id ≠ art.id := by
        rw [hid]
        exact h.fresh (h.ids _ _ hbyID).2
      refine ⟨hk',?_,?_⟩
      · rw [Table.get_set_of_ne hidne]
        exact hbyID
      · unfold latest at hlatest ⊢
        rw [List.find?_cons_of_neg]
        · exact hlatest
        · simp [hkey,Ne.symm hne]
  · intro id art' hget
    rcases Table.get_set_some hget with ⟨rfl,rfl⟩ | ⟨-,hget⟩
    · exact ⟨rfl,List.mem_cons_self⟩
    · obtain ⟨hid',hmem⟩ := h.ids id art' hget
      exact ⟨hid',List.mem_cons_of_mem _ hmem⟩
  · intro art' hart'
    rcases List.mem_cons.mp hart' with rfl | hart'
    · rw [hart]
      exact ⟨r,hstorer⟩
    · exact h.storers art' hart'

lemma Kept.delete (h : a.Kept) {key : String} (hart : a.memory.byKey.get key = some art) :
    Kept ⟨{ a.memory with byKey := a.memory.byKey.erase key, byID := a.memory.byID.erase art.id },
      a.stored⟩ := by
  refine ⟨h.numbered,h.nodup,?_,?_,h.storers⟩
  · intro k art' hk
    obtain ⟨hne,hk⟩ := Table.get_erase_some hk
    obtain ⟨hk',hbyID,hlatest⟩ := h.keys k art' hk
    refine ⟨hk',?_,hlatest⟩
    rw [Table.get_erase_of_ne]
    · exact hbyID
    · intro hid
      obtain ⟨hkey,hbyID',-⟩ := h.keys key art hart
      have hsame : art' = art := h.eq_of_id (h.ids _ _ hbyID).2 (h.ids _ _ hbyID').2 hid
      rw [hsame,hkey] at hk'
      exact hne hk'.symm
  · intro id art' hget
    exact h.ids id art' (Table.get_erase_some hget).2

theorem kept_step (h : a.Kept) (hs : a.step op = some a') : a'.Kept := by
  rcases step_cases hs with rfl | ⟨r,now,storerPID,key,content,contentType,visibility,-,hstorer,rfl⟩ |
    ⟨r,callerPID,key,art,-,hart,-,rfl⟩
  · exact h
  · exact h.store hstorer rfl
  · exact h.delete hart

/-- What a listing is for: exactly those artifacts that the reader gets under a key with the prefix, each
once, and they are the latest ones of their keys. -/
structure ListsExactly (a : Archive) (r : Registry) (readerPID : ℕ) (pre : String) (result : List Artifact) :
    Prop where
  nodup : result.Nodup
  mem : ∀ (v : r.Visits) art, art ∈ result ↔
    ∃ key, bytes pre <+: bytes key ∧ a.memory.get r v.order readerPID key = some (.ok art)
  latest : ∀ art ∈ result, a.latest art.key = some art

/-- The outcome of a check does not depend on the order of the walk. -/
lemma checkAccess_visits {r : Registry} {readerPID : ℕ} (v v' : r.Visits)
    (h : checkAccess r v.order readerPID art = some (.ok ())) :
    checkAccess r v'.order readerPID art = some (.ok ()) := by
  obtain ⟨result,hresult⟩ := Option.isSome_iff_exists.mp
    (isSome_checkAccess_visits v v' (Option.isSome_iff_exists.mpr ⟨_,h⟩))
  rw [hresult,(checkAccess_ok_iff v' hresult).mpr ((checkAccess_ok_iff v h).mp rfl)]

lemma Kept.listsExactly (h : a.Kept) {r : Registry} {keys : List String}
    (hkeys : a.memory.byKey.Enumerates keys) (visits : String → r.Visits) {readerPID : ℕ} {pre : String}
    {result : List Artifact}
    (hlist : a.memory.list r keys (fun key => (visits key).order) readerPID pre = some result) :
    a.ListsExactly r readerPID pre result := by
  constructor
  · rw [list_eq_some hlist]
    apply List.Nodup.filterMap
    · intro x y art hx hy
      have hx' := (listed_eq_some_iff.mp (Option.join_eq_some_iff.mp hx)).1
      have hy' := (listed_eq_some_iff.mp (Option.join_eq_some_iff.mp hy)).1
      exact hx'.symm.trans hy'
    · apply List.Nodup.filterMap
      · intro k k' art hk hk'
        exact (h.keys k art hk).1.symm.trans (h.keys k' art hk').1
      · exact hkeys.symm.nodup a.memory.byKey.toAList.nodupKeys
  · intro v art
    rw [mem_of_list hlist]
    constructor
    · rintro ⟨key,-,hart,hpre,hok⟩
      have hkey := (h.keys key art hart).1
      subst hkey
      exact ⟨art.key,hpre,read_eq_ok_iff.mpr ⟨hart,checkAccess_visits (visits art.key) v hok⟩⟩
    · rintro ⟨key,hpre,hget⟩
      obtain ⟨hart,hok⟩ := read_eq_ok_iff.mp hget
      have hkey := (h.keys key art hart).1
      subst hkey
      refine ⟨art.key,?_,hart,hpre,checkAccess_visits v (visits art.key) hok⟩
      exact (hkeys.mem_iff art.key).mpr (Option.isSome_iff_exists.mpr ⟨art,hart⟩)
  · intro art hart
    obtain ⟨key,-,hget,-⟩ := (mem_of_list hlist).mp hart
    obtain ⟨hkey,-,hlatest⟩ := h.keys key art hget
    rw [hkey]
    exact hlatest

/-- A listing does not end exactly if one of the reads that it stands for does not. -/
lemma Kept.list_eq_none_iff (h : a.Kept) {r : Registry} {keys : List String}
    (hkeys : a.memory.byKey.Enumerates keys) (visits : String → r.Visits) (readerPID : ℕ) (pre : String) :
    a.memory.list r keys (fun key => (visits key).order) readerPID pre = none ↔
      ∃ key, bytes pre <+: bytes key ∧ ∃ v : r.Visits, a.memory.get r v.order readerPID key = none := by
  rw [SharedMemory.list_eq_none_iff]
  constructor
  · rintro ⟨key,art,-,hart,hpre,hnone⟩
    have hkey := (h.keys key art hart).1
    subst hkey
    exact ⟨art.key,hpre,visits art.key,read_eq_none_iff.mpr ⟨art,hart,hnone⟩⟩
  · rintro ⟨key,hpre,v,hget⟩
    obtain ⟨art,hart,hnone⟩ := read_eq_none_iff.mp hget
    have hkey := (h.keys key art hart).1
    subst hkey
    refine ⟨art.key,art,?_,hart,hpre,?_⟩
    · exact (hkeys.mem_iff art.key).mpr (Option.isSome_iff_exists.mpr ⟨art,hart⟩)
    · rw [← Option.not_isSome_iff_eq_none] at hnone ⊢
      exact fun hsome => hnone (isSome_checkAccess_visits (visits art.key) v hsome)

/-- Over every history: the indexes agree, no number is given twice, and a listing returns exactly what
can be read under the keys with the prefix. It ends if those reads end, in particular on every table that
the kernel reaches. -/
theorem represented_of_run {trace : List (Transition Archive MemoryOp)} (run : Run step new trace a) :
    (∀ key art, a.memory.byKey.get key = some art →
      art.key = key ∧ a.memory.byID.get art.id = some art) ∧
    (a.stored.map Artifact.id).Nodup ∧
    ∀ (r : Registry) (keys : List String) (visits : String → r.Visits) (readerPID : ℕ) (pre : String),
      a.memory.byKey.Enumerates keys →
      (∀ result, a.memory.list r keys (fun key => (visits key).order) readerPID pre = some result →
        a.ListsExactly r readerPID pre result) ∧
      (a.memory.list r keys (fun key => (visits key).order) readerPID pre = none ↔
        ∃ key, bytes pre <+: bytes key ∧ ∃ v : r.Visits, a.memory.get r v.order readerPID key = none) ∧
      (r.Ordered → (a.memory.list r keys (fun key => (visits key).order) readerPID pre).isSome) := by
  have h : a.Kept := (run.invariant (fun _ _ _ h hs => kept_step h hs) kept_new).2
  refine ⟨fun key art hart => ?_,h.nodup,fun r keys visits readerPID pre hkeys => ⟨?_,?_,?_⟩⟩
  · obtain ⟨hkey,hbyID,-⟩ := h.keys key art hart
    exact ⟨hkey,hbyID⟩
  · exact fun result hlist => h.listsExactly hkeys visits hlist
  · exact h.list_eq_none_iff hkeys visits readerPID pre
  · exact fun ho => isSome_list_of_ordered ho visits keys readerPID pre

/-- The table of a lone king. -/
def throne : Registry := Registry.boot 0 "king" "root" "vps1"

def visitThrone : throne.Visits := ⟨fun _ => [1],fun _ => by decide⟩

/-- A note of the king for everybody. -/
def note (key : String) : MemoryOp := .store throne 0 1 key [] "text/plain" .visGlobal

/-- A note is replaced and another one deleted; the listing shows the second version. -/
theorem represented_of_run_replaced : ∃ trace a, Run step new trace a ∧
    ∃ result, a.memory.list throne ["plan/a"] (fun _ => visitThrone.order) 7 "plan/" = some result ∧
      result.map Artifact.id = ["art-2"] ∧ a.ListsExactly throne 7 "plan/" result := by
  obtain ⟨a,result,ha,hlist,hids,hkeys⟩ : ∃ a result,
      exec step [note "plan/a",note "plan/a",note "log",.delete throne 1 "log"] new = some a ∧
      a.memory.list throne ["plan/a"] (fun _ => visitThrone.order) 7 "plan/" = some result ∧
      result.map Artifact.id = ["art-2"] ∧ a.memory.byKey.Enumerates ["plan/a"] :=
    ⟨_,_,rfl,rfl,rfl,by decide⟩
  have hrun := Run.of_exec ha
  exact ⟨_,a,hrun,result,hlist,hids,
    ((represented_of_run hrun).2.2 throne ["plan/a"] (fun _ => visitThrone) 7 "plan/" hkeys).1 result hlist⟩

/-- The reader does not get the artifact, by any key, identifier or prefix. -/
def Hidden (a : Archive) (r : Registry) (readerPID : ℕ) (art : Artifact) : Prop :=
  (∀ (v : r.Visits) key, a.memory.get r v.order readerPID key ≠ some (.ok art)) ∧
  (∀ (v : r.Visits) id, a.memory.getByID r v.order readerPID id ≠ some (.ok art)) ∧
  ∀ keys (visits : String → r.Visits) pre result, a.memory.byKey.Enumerates keys →
    a.memory.list r keys (fun key => (visits key).order) readerPID pre = some result → art ∉ result

/-- Nobody can read the artifact, in any state of the processes. -/
def Gone (a : Archive) (art : Artifact) : Prop :=
  ∀ (r : Registry) (readerPID : ℕ), a.Hidden r readerPID art

/-- An artifact of the key that a later one has replaced is still there, and its visibility is one of
the four that there are. -/
def Stale (a : Archive) (key : String) : Prop :=
  ∃ id art, a.memory.byID.get id = some art ∧ art.key = key ∧ a.memory.byKey.get key ≠ some art ∧
    art.visibility.Known

lemma not_mayRead_of_unknown {r : Registry} {readerPID : ℕ} (h : ¬art.visibility.Known) :
    ¬MayRead r readerPID art := by
  intro hmay
  unfold MayRead at hmay
  unfold Visibility.Known at h
  cases hvis : art.visibility with
  | unknown code =>
    rw [hvis] at hmay
    exact hmay
  | visPrivate => simp [hvis] at h
  | visUser => simp [hvis] at h
  | visSubtree => simp [hvis] at h
  | visGlobal => simp [hvis] at h

/-- A storer that is registered can read its own artifact. -/
lemma mayRead_storer {r : Registry} (hknown : art.visibility.Known) (hr : (r.get art.storedByPID).isSome) :
    MayRead r art.storedByPID art := by
  obtain ⟨p,hp⟩ := Option.isSome_iff_exists.mp hr
  unfold MayRead
  cases hvis : art.visibility with
  | unknown code =>
    rw [hvis] at hknown
    exact hknown
  | visPrivate => exact rfl
  | visUser => exact ⟨p,p,hp,hp,rfl⟩
  | visSubtree => exact .inl rfl
  | visGlobal => trivial

lemma isSome_checkAccess_storer (r : Registry) (order : List ℕ → List ℕ) (art : Artifact) :
    (checkAccess r order art.storedByPID art).isSome := by
  rw [isSome_checkAccess_iff]
  exact fun _ hne => absurd rfl hne

/-- Whatever is read is in the index of identifiers, and its visibility was checked. -/
lemma Kept.hidden (h : a.Kept) {r : Registry} {readerPID : ℕ}
    (hno : ∀ id, a.memory.byID.get id = some art → ¬MayRead r readerPID art) :
    a.Hidden r readerPID art := by
  have hread : ∀ (v : r.Visits) id, a.memory.byID.get id = some art →
      checkAccess r v.order readerPID art ≠ some (.ok ()) := by
    intro v id hid hok
    exact hno id hid ((checkAccess_ok_iff v hok).mp rfl)
  refine ⟨fun v key hget => ?_,fun v id hget => ?_,fun keys visits pre result _ hlist hin => ?_⟩
  · obtain ⟨hk,hok⟩ := read_eq_ok_iff.mp hget
    exact hread v art.id (h.keys key art hk).2.1 hok
  · obtain ⟨hid,hok⟩ := read_eq_ok_iff.mp hget
    exact hread v id hid hok
  · obtain ⟨key,-,hk,-,hok⟩ := (mem_of_list hlist).mp hin
    exact hread (visits art.key) art.id (h.keys key art hk).2.1 hok

/-- An artifact is gone exactly if it is in no index, or nobody was ever meant to read it. -/
lemma Kept.gone_iff (h : a.Kept) (hart : art ∈ a.stored) :
    a.Gone art ↔ (∀ id, a.memory.byID.get id ≠ some art) ∨ ¬art.visibility.Known := by
  constructor
  · intro hgone
    by_contra hno
    push Not at hno
    obtain ⟨⟨id,hid⟩,hknown⟩ := hno
    obtain ⟨r,hr⟩ := h.storers art hart
    let v : r.Visits := ⟨fun _ => r.processes.keys,fun _ => List.Perm.refl _⟩
    obtain ⟨result,hresult⟩ := Option.isSome_iff_exists.mp (isSome_checkAccess_storer r v.order art)
    apply (hgone r art.storedByPID).2.1 v id
    rw [getByID,read_eq_ok_iff]
    refine ⟨hid,?_⟩
    rw [hresult,(checkAccess_ok_iff v hresult).mpr (mayRead_storer hknown hr)]
  · intro hno r readerPID
    apply h.hidden
    intro id hid
    rcases hno with hno | hno
    · exact absurd hid (hno id)
    · exact not_mayRead_of_unknown hno

lemma stored_step (hart : art ∈ a.stored) (hs : a.step op = some a') : art ∈ a'.stored := by
  rcases step_cases hs with rfl | ⟨r,now,storerPID,key,content,contentType,visibility,-,-,rfl⟩ |
    ⟨r,callerPID,key,art',-,-,-,rfl⟩
  · exact hart
  · exact List.mem_cons_of_mem _ hart
  · exact hart

/-- What is no longer in the index never comes back, as its number is not given again. -/
lemma absent_step (h : a.Kept) (hart : art ∈ a.stored) (habsent : ∀ id, a.memory.byID.get id ≠ some art)
    (hs : a.step op = some a') : ∀ id, a'.memory.byID.get id ≠ some art := by
  rcases step_cases hs with rfl | ⟨r,now,storerPID,key,content,contentType,visibility,-,-,rfl⟩ |
    ⟨r,callerPID,key,art',-,-,-,rfl⟩
  · exact habsent
  · intro id hid
    rcases Table.get_set_some hid with ⟨-,rfl⟩ | ⟨-,hid⟩
    · exact h.fresh hart rfl
    · exact habsent id hid
  · exact fun id hid => habsent id (Table.get_erase_some hid).2

/-- What a successful deletion does to the index of identifiers. -/
lemma byID_of_delete {r : Registry} {callerPID : ℕ} {key : String}
    (hok : (a.memory.delete r callerPID key).1 = .ok ()) (hs : a.step (.delete r callerPID key) = some a') :
    ∃ latest, a.memory.byKey.get key = some latest ∧ a'.stored = a.stored ∧
      ∀ id, a'.memory.byID.get id = if id = latest.id then none else a.memory.byID.get id := by
  have htarget : (⟨(a.memory.delete r callerPID key).2,a.stored⟩ : Archive) = a' := Option.some.inj hs
  rcases delete_cases a.memory r callerPID key with ⟨error,he⟩ | ⟨latest,hlatest,he⟩
  · rw [he] at hok
    cases hok
  · rw [he] at htarget
    subst htarget
    exact ⟨latest,hlatest,rfl,fun id => Table.get_erase _ _ _⟩

/-- Right after a deletion all artifacts of the key are gone exactly if none of them was stale. -/
lemma Kept.gone_of_delete_iff (h : a.Kept) {r : Registry} {callerPID : ℕ} {key : String}
    (hok : (a.memory.delete r callerPID key).1 = .ok ()) (hs : a.step (.delete r callerPID key) = some a') :
    (∀ art ∈ a.stored, art.key = key → a'.Gone art) ↔ ¬a.Stale key := by
  have h' : a'.Kept := kept_step h hs
  obtain ⟨latest,hkey,hstored,hids⟩ := byID_of_delete hok hs
  constructor
  · rintro hgone ⟨id,art,hid,hart,hreplaced,hknown⟩
    obtain ⟨rfl,hmem⟩ := h.ids id art hid
    rcases (h'.gone_iff (hstored ▸ hmem)).mp (hgone art hmem hart) with habsent | hno
    · apply habsent art.id
      rw [hids,if_neg]
      · exact hid
      · intro hsame
        obtain ⟨-,hbyID,-⟩ := h.keys key latest hkey
        apply hreplaced
        rw [h.eq_of_id hmem (h.ids _ _ hbyID).2 hsame]
        exact hkey
    · exact hno hknown
  · intro hno art hmem hart
    rw [h'.gone_iff (hstored ▸ hmem)]
    by_cases hknown : art.visibility.Known
    · refine .inl (fun id hid => ?_)
      rw [hids] at hid
      split_ifs at hid with hne
      apply hno
      refine ⟨id,art,hid,hart,fun hlast => ?_,hknown⟩
      cases hkey.symm.trans hlast
      exact hne (h.ids id latest hid).1.symm
    · exact .inr hknown

/-- What is gone stays so. -/
lemma gone_step (h : a.Kept) (hart : art ∈ a.stored) (hgone : a.Gone art) (hs : a.step op = some a') :
    a'.Gone art := by
  rw [(kept_step h hs).gone_iff (stored_step hart hs)]
  rcases (h.gone_iff hart).mp hgone with habsent | hunknown
  · exact .inl (absent_step h hart habsent hs)
  · exact .inr hunknown

/-- Every artifact of a deleted key is gone, then and in all later states, exactly if none of them had been
replaced before and was still there. -/
theorem gone_iff_of_run {before later : List (Transition Archive MemoryOp)} {e : Transition Archive MemoryOp}
    (run : Run step new (before++e::later) a) {r : Registry} {callerPID : ℕ} {key : String}
    (hlabel : e.label = .delete r callerPID key) (hok : (e.source.memory.delete r callerPID key).1 = .ok ()) :
    (∀ m, m = e.target ∨ (∃ e' ∈ later, m = e'.target) → ∀ art ∈ e.source.stored, art.key = key → m.Gone art) ↔
      ¬e.source.Stale key := by
  obtain ⟨hbefore,hs,hlater⟩ := run.split
  have hsource : e.source.Kept := (hbefore.invariant (fun _ _ _ h hs => kept_step h hs) kept_new).2
  have htarget : e.target.Kept := kept_step hsource hs
  have hiff := hsource.gone_of_delete_iff hok (hlabel ▸ hs)
  constructor
  · exact fun hgone => hiff.mp (hgone e.target (.inl rfl))
  · intro hno m hm art hmem hart
    have hgone := hiff.mpr hno art hmem hart
    obtain ⟨_,_,-,hrun,-⟩ := hlater.cut hm
    have hinv := (hrun.invariant
      (fun s op t (h : s.Kept ∧ art ∈ s.stored ∧ s.Gone art) hst =>
        ⟨kept_step h.1 hst,stored_step h.2.1 hst,gone_step h.1 h.2.1 h.2.2 hst⟩)
      ⟨htarget,stored_step hmem hs,hgone⟩).2
    exact hinv.2.2

/-- A note that was stored, deleted and stored again is gone after the second deletion. -/
theorem gone_iff_of_run_storedAgain : ∃ trace a, Run step new trace a ∧
    (a.stored.map Artifact.id = ["art-2","art-1"] ∧ ∀ art ∈ a.stored, a.Gone art) := by
  let a := ((exec step [note "plan",.delete throne 1 "plan",note "plan"] new).getD new)
  have ha : exec step [note "plan",.delete throne 1 "plan",note "plan"] new = some a := rfl
  let a' : Archive := ⟨(a.memory.delete throne 1 "plan").2,a.stored⟩
  have hlast : step a (.delete throne 1 "plan") = some a' := rfl
  have hrun := (Run.of_exec ha).snoc hlast
  have hfresh : ¬a.Stale "plan" := by
    rintro ⟨id,art,hid,-,hne,-⟩
    rcases Table.get_set_some hid with ⟨-,rfl⟩ | ⟨-,hid⟩
    · exact hne rfl
    · obtain ⟨hne',hid⟩ := Table.get_erase_some hid
      rcases Table.get_set_some hid with ⟨rfl,-⟩ | ⟨-,hid⟩
      · exact hne' rfl
      · cases hid
  refine ⟨_,a',hrun,rfl,fun art hart => ?_⟩
  have hkey : ∀ art ∈ a.stored, art.key = "plan" := by decide
  exact (gone_iff_of_run hrun rfl rfl).mpr hfresh a' (.inl rfl) art hart (hkey art hart)

/-- A note is stored twice under one key. After the key is deleted the first version can still be read by
its number. -/
theorem replaced_survives_delete : ¬∀ (before : List (Transition Archive MemoryOp)) (a : Archive) (r : Registry)
    (callerPID : ℕ) (key : String), Run step new before a →
      (a.memory.delete r callerPID key).1 = .ok () → ∀ art ∈ a.stored, art.key = key →
        ∀ (r' : Registry) (v : r'.Visits) readerPID id,
          (a.memory.delete r callerPID key).2.getByID r' v.order readerPID id ≠ some (.ok art) := by
  intro h
  obtain ⟨a,first,ha,hok,hmem,hkey,hread⟩ : ∃ a first, exec step [note "plan",note "plan"] new = some a ∧
      (a.memory.delete throne 1 "plan").1 = .ok () ∧ first ∈ a.stored ∧ first.key = "plan" ∧
      (a.memory.delete throne 1 "plan").2.getByID throne visitThrone.order 7 "art-1" = some (.ok first) :=
    ⟨_,⟨"art-1","plan",[],"text/plain",.visGlobal,1,0⟩,rfl,rfl,by decide,rfl,rfl⟩
  exact h _ a throne 1 "plan" (Run.of_exec ha) hok first hmem hkey throne visitThrone 7 "art-1" hread

end Archive
end HiveKernel
