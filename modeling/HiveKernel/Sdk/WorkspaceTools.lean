import HiveKernel.Lib.Path
import HiveKernel.Lib.Text
import Mathlib.Data.List.Induction

/-! The paths that the workspace tools take from the model. What the file system makes of a path is a
parameter; the tools see to it that the result lies within the workspace of the agent. -/
namespace HiveKernel.Workspace
open Lib Path

/-- Names as they are in a normalised path. -/
structure Normal (names : List (List Char)) : Prop where
  plain : Plain '/' names
  dot : ['.'] ∉ names
  dotdot : ['.','.'] ∉ names

/-- What `os.path.realpath` promises: the result is absolute and normalised, and is left as it is by another
call. -/
structure PathResolution where
  realpath : String → String
  normalised : ∀ path, ∃ names, Normal names ∧ (realpath path).toList = render '/' names
  idempotent : ∀ path, realpath (realpath path) = realpath path

/-- `os.path.join` of two paths. -/
def joinPath (path relative : String) : String :=
  if relative.toList.head? = some '/' then relative
  else if path = "" ∨ path.toList.getLast? = some '/' then path++relative
  else path++"/"++relative

def startsWith (text start : String) : Bool := start.toList.isPrefixOf text.toList

/-- Resolve a path and verify that it is within the workspace. -/
def safePath (fs : PathResolution) (workspace relative : String) : Except String String :=
  if workspace = "" then .error "No workspace configured for this agent"
  else
    let resolved := fs.realpath (joinPath workspace relative)
    let wsReal := fs.realpath workspace
    if ¬startsWith resolved (wsReal++"/") ∧ resolved ≠ wsReal then .error s!"Path escapes workspace: {relative}"
    else .ok resolved

/-- The directories on the way to `dir` lead to the path as well. -/
def Within (dir path : String) : Prop := components '/' dir.toList <+: components '/' path.toList

variable {fs : PathResolution}

lemma components_realpath (fs : PathResolution) (path : String) : Normal (components '/' (fs.realpath path).toList) ∧
    (fs.realpath path).toList = render '/' (components '/' (fs.realpath path).toList) := by
  obtain ⟨names,hnormal,hpath⟩ := fs.normalised path
  rw [hpath,components_render hnormal.plain]
  exact ⟨hnormal,rfl⟩

lemma components_eq_nil_iff (fs : PathResolution) (path : String) :
    components '/' (fs.realpath path).toList = [] ↔ fs.realpath path = "/" := by
  obtain ⟨-,hpath⟩ := components_realpath fs path
  constructor
  · intro h
    rw [h] at hpath
    exact String.toList_injective hpath
  · intro h
    rw [h]
    decide

/-- The check on the texts says what it should, unless the workspace is the root. -/
lemma check_iff (fs : PathResolution) (dir path : String) (hroot : fs.realpath dir ≠ "/") :
    (startsWith (fs.realpath path) (fs.realpath dir++"/") = true ∨ fs.realpath path = fs.realpath dir) ↔
      Within (fs.realpath dir) (fs.realpath path) := by
  obtain ⟨hdir,hdirText⟩ := components_realpath fs dir
  obtain ⟨hnames,hnamesText⟩ := components_realpath fs path
  have hne : components '/' (fs.realpath dir).toList ≠ [] := fun h => hroot ((components_eq_nil_iff fs dir).mp h)
  rw [Within,← isPrefixOf_or_eq_iff hdir.plain hnames.plain hne,← hdirText,← hnamesText,startsWith,
    String.toList_append,String.toList_inj]
  rfl

/-- A path that is returned is the resolved path, which lies in the workspace, and the call raises exactly for
paths that resolve to something outside of it. The root as a workspace is left out of the second half. -/
theorem safePath_confined (fs : PathResolution) (workspace relative : String) (hne : workspace ≠ "") :
    (∀ path, safePath fs workspace relative = .ok path → path = fs.realpath (joinPath workspace relative) ∧
      fs.realpath path = path ∧ Within (fs.realpath workspace) path) ∧
    (fs.realpath workspace ≠ "/" →
      ((∃ e, safePath fs workspace relative = .error e) ↔
        ¬Within (fs.realpath workspace) (fs.realpath (joinPath workspace relative)))) := by
  have hcheck := fun hroot => check_iff fs workspace (joinPath workspace relative) hroot
  unfold safePath
  rw [if_neg hne]
  simp only
  by_cases hpass : startsWith (fs.realpath (joinPath workspace relative)) (fs.realpath workspace++"/") = true ∨
      fs.realpath (joinPath workspace relative) = fs.realpath workspace
  · rw [if_neg (by tauto)]
    refine ⟨?_,fun hroot => ?_⟩
    · rintro path ⟨⟩
      refine ⟨rfl,fs.idempotent _,?_⟩
      by_cases hroot : fs.realpath workspace = "/"
      · rw [Within,(components_eq_nil_iff fs workspace).mpr hroot]
        exact List.nil_prefix
      · exact (hcheck hroot).mp hpass
    · exact iff_of_false (by simp) (not_not.mpr ((hcheck hroot).mp hpass))
  · rw [if_pos (by tauto)]
    refine ⟨?_,fun hroot => iff_of_true ⟨_,rfl⟩ (fun hwithin => hpass ((hcheck hroot).mpr hwithin))⟩
    rintro path ⟨⟩

/-- Go on from a directory to what a name in it stands for. -/
def follow (names : List (List Char)) (name : List Char) : List (List Char) :=
  if name = ['.'] then names else if name = ['.','.'] then names.dropLast else names++[name]

/-- What a path resolves to, from the root, where there are no links. -/
def lexical (path : String) : String := String.ofList (render '/' ((components '/' path.toList).foldl follow []))

lemma plain_components (path : List Char) : Plain '/' (components '/' path) := by
  intro name hname
  obtain ⟨hmem,hne⟩ := List.mem_filter.mp hname
  refine ⟨by simpa using hne,fun hslash => ?_⟩
  rw [List.splitOn_eq_splitOnP] at hmem
  simpa using (mem_of_mem_splitOnP hmem hslash).2

lemma normal_nil : Normal [] := ⟨fun _ h => absurd h List.not_mem_nil,List.not_mem_nil,List.not_mem_nil⟩

lemma Normal.sublist {names names' : List (List Char)} (h : Normal names) (hsub : names'.Sublist names) :
    Normal names' :=
  ⟨fun n hn => h.plain n (hsub.subset hn),fun hn => h.dot (hsub.subset hn),fun hn => h.dotdot (hsub.subset hn)⟩

lemma Normal.follow {names : List (List Char)} (h : Normal names) {name : List Char} (hne : name ≠ [])
    (hslash : '/' ∉ name) : Normal (follow names name) := by
  unfold Workspace.follow
  split_ifs with hdot hdotdot
  · exact h
  · exact h.sublist (List.dropLast_sublist names)
  · refine ⟨fun n hn => ?_,fun hn => ?_,fun hn => ?_⟩
    · rcases List.mem_append.mp hn with hn | hn
      · exact h.plain n hn
      · rw [List.mem_singleton.mp hn]
        exact ⟨hne,hslash⟩
    · rcases List.mem_append.mp hn with hn | hn
      · exact h.dot hn
      · exact hdot (List.mem_singleton.mp hn).symm
    · rcases List.mem_append.mp hn with hn | hn
      · exact h.dotdot hn
      · exact hdotdot (List.mem_singleton.mp hn).symm

lemma Normal.foldl_follow {names : List (List Char)} (h : Normal names) {rest : List (List Char)}
    (hrest : Plain '/' rest) : Normal (rest.foldl Workspace.follow names) := by
  induction rest generalizing names with
  | nil => exact h
  | cons name rest ih =>
    obtain ⟨hname,hrest⟩ := List.forall_mem_cons.mp hrest
    exact ih (h.follow hname.1 hname.2) hrest

/-- A normalised path is resolved already. -/
lemma foldl_follow_of_normal {names : List (List Char)} (h : Normal names) : names.foldl follow [] = names := by
  induction names using List.reverseRecOn with
  | nil => rfl
  | append_singleton names name ih =>
    have hnames : Normal names := h.sublist (List.sublist_append_left names [name])
    have hlast : name ∈ names++[name] := List.mem_append_right _ (List.mem_singleton_self name)
    rw [List.foldl_append,ih hnames,List.foldl_cons,List.foldl_nil,follow,if_neg,if_neg]
    · rintro rfl
      exact h.dotdot hlast
    · rintro rfl
      exact h.dot hlast

def lexicalResolution : PathResolution where
  realpath := lexical
  normalised path := ⟨_,normal_nil.foldl_follow (plain_components path.toList),String.toList_ofList⟩
  idempotent path := by
    have hnormal := normal_nil.foldl_follow (plain_components path.toList)
    rw [lexical,lexical,String.toList_ofList,components_render hnormal.plain,foldl_follow_of_normal hnormal]

theorem safePath_confined_lexical :
    safePath lexicalResolution "/srv/ws" "notes/../a.txt" = .ok "/srv/ws/a.txt" ∧
      Within (lexicalResolution.realpath "/srv/ws") "/srv/ws/a.txt" ∧
      ∃ e, safePath lexicalResolution "/srv/ws" "../ws2/a.txt" = .error e := by
  have hok : safePath lexicalResolution "/srv/ws" "notes/../a.txt" = .ok "/srv/ws/a.txt" := by decide
  refine ⟨hok,((safePath_confined lexicalResolution "/srv/ws" "notes/../a.txt" (by decide)).1 _ hok).2.2,?_⟩
  refine ((safePath_confined lexicalResolution "/srv/ws" "../ws2/a.txt" (by decide)).2 (by decide)).mpr ?_
  unfold Within
  decide

end HiveKernel.Workspace
