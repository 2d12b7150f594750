import VynxDesk.Lib.HostPath
import VynxDesk.Lib.Run

/-!
# The log of removed files

`FileRemoveLogControl` collects the files and directories that a peer removes and logs them once
nothing was removed for a second, without what lies in a removed directory.  Directories are
collapsed in either order.  Files are tested against a directory with parent and child exchanged,
and not tested at all when the directory comes first, so that a file can be logged next to its
directory, or be lost (`not_collapsed`).  `collapsed_iff_of_run` says when that does not happen.
-/

namespace VynxDesk.RemoveLog

open HostPath

/-- `FileActionLog`, which `ipc::Data::FileTransferLog` carries with the action `remove`. -/
structure FileActionLog where
  id : ℤ
  connId : ℤ
  path : String
  dir : Bool
  deriving DecidableEq, Repr

/-- What `FileRemoveFile` and `FileRemoveDir` have that is logged. -/
structure Removed where
  id : ℤ
  path : String
  deriving DecidableEq, Repr

/-- `FileRemoveLogControl`; an instant is a time in nanoseconds. -/
structure FileRemoveLogControl where
  connId : ℤ
  instant : ℕ
  removedFiles : List Removed := []
  removedDirs : List Removed := []
  deriving DecidableEq, Repr

section

-- The components of a path, as the host has them.
variable (components : String → List Component)

/-- `direct_child`. -/
def directChild (parent child : String) : Bool :=
  HostPath.parent (components child) = some (components parent)

/-- A directory of the list is the parent. -/
def Listed (dirs : List Removed) (path : String) : Prop :=
  ∃ x ∈ dirs, directChild components x.path path

instance (dirs : List Removed) (path : String) : Decidable (Listed components dirs path) :=
  inferInstanceAs (Decidable (∃ x ∈ dirs, directChild components x.path path = true))

namespace FileRemoveLogControl

/-- What is logged for a removed file. -/
def fileLog (c : FileRemoveLogControl) (f : Removed) : FileActionLog :=
  ⟨f.id, c.connId, f.path, false⟩

/-- What is logged for a removed directory. -/
def dirLog (c : FileRemoveLogControl) (d : Removed) : FileActionLog :=
  ⟨d.id, c.connId, d.path, true⟩

/-- `on_remove_file`. -/
def onRemoveFile (c : FileRemoveLogControl) (f : Removed) (now : ℕ) :
    Option FileActionLog × FileRemoveLogControl :=
  (some (c.fileLog f), { c with instant := now, removedFiles := c.removedFiles ++ [f] })

/-- `on_remove_dir`. -/
def onRemoveDir (c : FileRemoveLogControl) (d : Removed) (now : ℕ) :
    Option FileActionLog × FileRemoveLogControl :=
  let removedFiles := c.removedFiles.filter fun f => !directChild components f.path d.path
  let removedDirs := c.removedDirs.filter fun x => !directChild components d.path x.path
  (some (c.dirLog d), { c with
    instant := now
    removedFiles := removedFiles
    removedDirs :=
      if Listed components removedDirs d.path then removedDirs else removedDirs ++ [d] })

/-- What is logged when the lists are drained. -/
def batch (c : FileRemoveLogControl) : List FileActionLog :=
  c.removedFiles.map c.fileLog ++ c.removedDirs.map c.dirLog

/-- Less than a second has passed since something was removed. -/
def Waiting (c : FileRemoveLogControl) (now : ℕ) : Prop := (now - c.instant) / 1000000000 < 1

instance (c : FileRemoveLogControl) (now : ℕ) : Decidable (c.Waiting now) :=
  inferInstanceAs (Decidable (_ < _))

/-- `on_timer`. -/
def onTimer (c : FileRemoveLogControl) (now : ℕ) : List FileActionLog × FileRemoveLogControl :=
  if c.Waiting now then ([], c)
  else (c.batch, { c with removedFiles := [], removedDirs := [] })

end FileRemoveLogControl

/-- A call of the connection. -/
inductive Event where
  | removeFile (f : Removed)
  | removeDir (d : Removed)
  | timer
  deriving DecidableEq, Repr

/-- The log of a connection, with what was removed since the last flush. -/
structure State where
  control : FileRemoveLogControl
  files : List Removed := []
  dirs : List Removed := []
  deriving DecidableEq, Repr

namespace State

/-- The state behind a call, which is given with its time. -/
def next (s : State) (x : Event × ℕ) : State :=
  match x.1 with
  | .removeFile f => { s with control := (s.control.onRemoveFile f x.2).2, files := f :: s.files }
  | .removeDir d =>
      { s with control := (s.control.onRemoveDir components d x.2).2, dirs := d :: s.dirs }
  | .timer =>
      let control := (s.control.onTimer x.2).2
      if s.control.Waiting x.2 then { s with control := control } else { control := control }

/-- A step of the connection. -/
def Step (s : State) (x : Event × ℕ) (s' : State) : Prop := s' = s.next components x

/-- Two texts for one path. -/
def SamePath (p q : String) : Prop := components p = components q

/-- What `on_timer` would log is collapsed: nothing is logged next to its parent directory, and
everything that was removed is logged, or its parent directory was removed. -/
structure Collapsed (s : State) : Prop where
  apart : ∀ e ∈ s.control.batch, ∀ d ∈ s.control.batch, d.dir →
    ¬ directChild components d.path e.path
  whole : ∀ r ∈ s.files ++ s.dirs, (∃ e ∈ s.control.batch, SamePath components e.path r.path)
    ∨ Listed components s.dirs r.path

/-- The calls that the log gets right.  A file does not come behind its directory.  A directory that
will be logged does not come behind its files.  A directory does not come behind a file which is its
parent, unless the path of that file is logged as a directory or its parent was removed. -/
def Clean (s : State) (x : Event × ℕ) : Prop :=
  match x.1 with
  | .removeFile f => ¬ Listed components s.control.removedDirs f.path
  | .removeDir d => Listed components s.control.removedDirs d.path
      ∨ ((∀ f ∈ s.control.removedFiles, ¬ directChild components d.path f.path)
        ∧ ∀ f ∈ s.control.removedFiles, directChild components f.path d.path →
          Listed components s.dirs f.path)
  | .timer => True

instance (s : State) (x : Event × ℕ) : Decidable (Clean components s x) :=
  match x with
  | (.removeFile _, _) => inferInstanceAs (Decidable (¬ _))
  | (.removeDir _, _) => inferInstanceAs (Decidable (_ ∨ (_ ∧ _)))
  | (.timer, _) => .isTrue trivial

end State

end

open State

variable {components : String → List Component} {s s' : State} {x : Event × ℕ} {p q r : String}
  {d f : Removed}

theorem directChild_iff :
  directChild components p q = true ↔ HostPath.parent (components q) = some (components p)
  := decide_eq_true_iff

/-- A path has one parent. -/
theorem samePath_of_directChild (hp : directChild components p r)
    (hq : directChild components q r) :
  SamePath components p q
  := by
  rw [directChild_iff] at hp hq
  exact Option.some.inj (hp.symm.trans hq)

/-- Texts for one path have the same parents and the same children. -/
theorem directChild_left (h : SamePath components p q) :
  directChild components p r = directChild components q r
  := by
  rw [directChild, directChild, h]

theorem directChild_right (h : SamePath components p q) :
  directChild components r p = directChild components r q
  := by
  rw [directChild, directChild, h]

theorem listed_congr (h : SamePath components p q) {dirs : List Removed} :
  Listed components dirs p ↔ Listed components dirs q
  := by
  simp only [Listed, directChild_right h]

/-- Nothing is a child of its own child. -/
theorem not_directChild_swap (h : directChild components p q) :
  ¬ directChild components q p
  := by
  intro hswap
  have hlength := length_of_parent (directChild_iff.mp h)
  have hback := length_of_parent (directChild_iff.mp hswap)
  omega

/-- What holds in every state: the directories that will be logged are collapsed. -/
structure Inv (components : String → List Component) (s : State) : Prop where
  files : s.control.removedFiles ⊆ s.files
  dirs : s.control.removedDirs ⊆ s.dirs
  apart : ∀ y ∈ s.control.removedDirs, ¬ Listed components s.control.removedDirs y.path
  whole : ∀ r ∈ s.dirs, (∃ y ∈ s.control.removedDirs, SamePath components y.path r.path)
    ∨ Listed components s.dirs r.path

/-- The part of `Collapsed` that is about files. -/
structure FilesCollapsed (components : String → List Component) (s : State) : Prop where
  apart : ∀ f ∈ s.control.removedFiles, ¬ Listed components s.control.removedDirs f.path
  whole : ∀ r ∈ s.files, (∃ f ∈ s.control.removedFiles, SamePath components f.path r.path)
    ∨ (∃ y ∈ s.control.removedDirs, SamePath components y.path r.path)
    ∨ Listed components s.dirs r.path

/-- What is logged is collapsed when its files are. -/
theorem Inv.collapsed_iff (hinv : Inv components s) :
  Collapsed components s ↔ FilesCollapsed components s
  := by
  constructor
  · intro h
    constructor
    · rintro f hf ⟨y, hy, hchild⟩
      have hfile : s.control.fileLog f ∈ s.control.batch :=
        List.mem_append_left _ (List.mem_map_of_mem hf)
      have hdir : s.control.dirLog y ∈ s.control.batch :=
        List.mem_append_right _ (List.mem_map_of_mem hy)
      exact h.apart _ hfile _ hdir rfl hchild
    · intro r hr
      rcases h.whole r (List.mem_append_left _ hr) with ⟨e, he, hsame⟩ | hlisted
      · rcases List.mem_append.mp he with he | he
        · obtain ⟨f, hf, rfl⟩ := List.mem_map.mp he
          exact .inl ⟨f, hf, hsame⟩
        · obtain ⟨y, hy, rfl⟩ := List.mem_map.mp he
          exact .inr (.inl ⟨y, hy, hsame⟩)
      · exact .inr (.inr hlisted)
  · intro h
    constructor
    · intro e he e' he' hdir hchild
      rcases List.mem_append.mp he' with he' | he'
      · obtain ⟨f, -, rfl⟩ := List.mem_map.mp he'
        cases hdir
      · obtain ⟨y, hy, rfl⟩ := List.mem_map.mp he'
        rcases List.mem_append.mp he with he | he
        · obtain ⟨f, hf, rfl⟩ := List.mem_map.mp he
          exact h.apart f hf ⟨y, hy, hchild⟩
        · obtain ⟨z, hz, rfl⟩ := List.mem_map.mp he
          exact hinv.apart z hz ⟨y, hy, hchild⟩
    · intro r hr
      rcases List.mem_append.mp hr with hr | hr
      · rcases h.whole r hr with ⟨f, hf, hsame⟩ | ⟨y, hy, hsame⟩ | hlisted
        · left
          exact ⟨_, List.mem_append_left _ (List.mem_map_of_mem hf), hsame⟩
        · left
          exact ⟨_, List.mem_append_right _ (List.mem_map_of_mem hy), hsame⟩
        · right
          exact hlisted
      · rcases hinv.whole r hr with ⟨y, hy, hsame⟩ | hlisted
        · left
          exact ⟨_, List.mem_append_right _ (List.mem_map_of_mem hy), hsame⟩
        · right
          exact hlisted

/-- A log without a removal. -/
def start (connId : ℤ) (instant : ℕ) : State := { control := ⟨connId, instant, [], []⟩ }

theorem Inv.start (connId : ℤ) (instant : ℕ) :
  Inv components (start connId instant)
  := ⟨nofun, nofun, nofun, nofun⟩

/-- A directory is logged unless its parent directory will be. -/
theorem mem_onRemoveDir {c : FileRemoveLogControl} {y : Removed} {now : ℕ} :
  y ∈ (c.onRemoveDir components d now).2.removedDirs
    ↔ (y ∈ c.removedDirs ∧ ¬ directChild components d.path y.path)
      ∨ (y = d ∧ ¬ Listed components c.removedDirs d.path)
  := by
  have hkept : Listed components
        (c.removedDirs.filter fun x => !directChild components d.path x.path) d.path
      ↔ Listed components c.removedDirs d.path := by
    constructor
    · rintro ⟨z, hz, hchild⟩
      exact ⟨z, List.mem_of_mem_filter hz, hchild⟩
    · rintro ⟨z, hz, hchild⟩
      have hswap := not_directChild_swap hchild
      exact ⟨z, List.mem_filter.mpr ⟨hz, by simpa using hswap⟩, hchild⟩
  simp only [FileRemoveLogControl.onRemoveDir, hkept]
  split
  · rename_i hlisted
    simp [hlisted]
  · rename_i hnew
    simp [hnew]

theorem mem_onRemoveDir_files {c : FileRemoveLogControl} {now : ℕ} :
  f ∈ (c.onRemoveDir components d now).2.removedFiles
    ↔ f ∈ c.removedFiles ∧ ¬ directChild components f.path d.path
  := by
  simp [FileRemoveLogControl.onRemoveDir]

theorem Listed.mono {dirs dirs' : List Removed} (hsub : dirs ⊆ dirs')
    (hlisted : Listed components dirs p) :
  Listed components dirs' p
  := by
  obtain ⟨y, hy, hchild⟩ := hlisted
  exact ⟨y, hsub hy, hchild⟩

/-- What stands for a removed path stands for it behind a removed directory. -/
theorem covered_removeDir {now : ℕ}
    (h : (∃ y ∈ s.control.removedDirs, SamePath components y.path p)
      ∨ Listed components s.dirs p) :
  (∃ y ∈ (s.next components (.removeDir d, now)).control.removedDirs, SamePath components y.path p)
    ∨ Listed components (s.next components (.removeDir d, now)).dirs p
  := by
  rcases h with ⟨y, hy, hsame⟩ | hlisted
  · by_cases hchild : directChild components d.path y.path
    · right
      rw [← listed_congr hsame]
      exact ⟨d, List.mem_cons_self, hchild⟩
    · left
      exact ⟨y, mem_onRemoveDir.mpr (.inl ⟨hy, hchild⟩), hsame⟩
  · right
    apply hlisted.mono (List.subset_cons_self _ _)

/-- A removed directory keeps the directories collapsed. -/
theorem Inv.removeDir (hinv : Inv components s) (now : ℕ) :
  Inv components (s.next components (.removeDir d, now))
  := by
  constructor
  · intro f hf
    rw [State.next, mem_onRemoveDir_files] at hf
    exact hinv.files hf.1
  · intro y hy
    rw [State.next, mem_onRemoveDir] at hy
    rcases hy with ⟨hy, -⟩ | ⟨rfl, -⟩
    · exact List.mem_cons_of_mem _ (hinv.dirs hy)
    · exact List.mem_cons_self
  · rintro y hy ⟨z, hz, hchild⟩
    rw [State.next, mem_onRemoveDir] at hy hz
    rcases hy with ⟨hy, hkept⟩ | ⟨rfl, hnew⟩
    · rcases hz with ⟨hz, -⟩ | ⟨rfl, -⟩
      · exact hinv.apart y hy ⟨z, hz, hchild⟩
      · exact hkept hchild
    · rcases hz with ⟨hz, -⟩ | ⟨rfl, -⟩
      · exact hnew ⟨z, hz, hchild⟩
      · exact not_directChild_swap hchild hchild
  · intro r hr
    rcases List.mem_cons.mp hr with rfl | hr
    · by_cases hlisted : Listed components s.control.removedDirs r.path
      · right
        apply hlisted.mono
        intro y hy
        exact List.mem_cons_of_mem _ (hinv.dirs hy)
      · left
        exact ⟨r, mem_onRemoveDir.mpr (.inr ⟨rfl, hlisted⟩), rfl⟩
    · exact covered_removeDir (hinv.whole r hr)

/-- Every call keeps the directories collapsed. -/
theorem Inv.next (hinv : Inv components s) :
  Inv components (s.next components x)
  := by
  obtain ⟨event, now⟩ := x
  cases event with
  | removeFile f =>
      refine ⟨?_, hinv.dirs, hinv.apart, hinv.whole⟩
      intro g hg
      rcases List.mem_append.mp hg with hg | hg
      · exact List.mem_cons_of_mem _ (hinv.files hg)
      · rw [List.mem_singleton.mp hg]
        exact List.mem_cons_self
  | removeDir d => exact hinv.removeDir now
  | timer =>
      rw [State.next, FileRemoveLogControl.onTimer]
      by_cases hwaiting : s.control.Waiting now
      · simpa only [if_pos hwaiting] using hinv
      · simp only [if_neg hwaiting]
        exact ⟨nofun, nofun, nofun, nofun⟩

/-- A file leaves what is logged collapsed exactly when its directory will not be logged. -/
theorem filesCollapsed_removeFile (h : FilesCollapsed components s) {now : ℕ} :
  FilesCollapsed components (s.next components (.removeFile f, now))
    ↔ ¬ Listed components s.control.removedDirs f.path
  := by
  constructor
  · intro hafter
    apply hafter.apart f
    exact List.mem_append_right _ (List.mem_singleton.mpr rfl)
  · intro hclean
    constructor
    · intro g hg
      rcases List.mem_append.mp hg with hg | hg
      · exact h.apart g hg
      · rw [List.mem_singleton.mp hg]
        exact hclean
    · intro r hr
      rcases List.mem_cons.mp hr with rfl | hr
      · left
        exact ⟨r, List.mem_append_right _ (List.mem_singleton.mpr rfl), rfl⟩
      · rcases h.whole r hr with ⟨g, hg, hsame⟩ | hcovered
        · left
          exact ⟨g, List.mem_append_left _ hg, hsame⟩
        · right
          exact hcovered

/-- A directory leaves what is logged collapsed exactly when it is dropped itself, or none of the
files that will be logged is its child, and no file that it drops is lost. -/
theorem filesCollapsed_removeDir (hinv : Inv components s) (h : FilesCollapsed components s)
    {now : ℕ} :
  FilesCollapsed components (s.next components (.removeDir d, now))
    ↔ Clean components s (.removeDir d, now)
  := by
  constructor
  · intro hafter
    apply or_iff_not_imp_left.mpr
    intro hnew
    constructor
    · intro f hf hchild
      apply hafter.apart f
      · exact mem_onRemoveDir_files.mpr ⟨hf, not_directChild_swap hchild⟩
      · exact ⟨d, mem_onRemoveDir.mpr (.inr ⟨rfl, hnew⟩), hchild⟩
    · intro f hf hparent
      rcases hafter.whole f (hinv.files hf) with ⟨g, hg, hsame⟩ | ⟨y, hy, hsame⟩ | hlisted
      · rw [State.next, mem_onRemoveDir_files, directChild_left hsame] at hg
        exact absurd hparent hg.2
      · rw [← directChild_left hsame] at hparent
        rw [State.next, mem_onRemoveDir] at hy
        rcases hy with ⟨hy, -⟩ | ⟨rfl, -⟩
        · exact absurd ⟨y, hy, hparent⟩ hnew
        · exact absurd hparent (not_directChild_swap hparent)
      · obtain ⟨y, hy, hchild⟩ := hlisted
        rcases List.mem_cons.mp hy with rfl | hy
        · exact absurd hparent (not_directChild_swap hchild)
        · exact ⟨y, hy, hchild⟩
  · intro hclean
    constructor
    · rintro f hf ⟨y, hy, hchild⟩
      rw [State.next, mem_onRemoveDir_files] at hf
      rw [State.next, mem_onRemoveDir] at hy
      rcases hy with ⟨hy, -⟩ | ⟨rfl, hnew⟩
      · exact h.apart f hf.1 ⟨y, hy, hchild⟩
      · exact (hclean.resolve_left hnew).1 f hf.1 hchild
    · intro r hr
      rcases h.whole r hr with ⟨f, hf, hsame⟩ | hcovered
      · by_cases hparent : directChild components f.path d.path
        · right
          apply covered_removeDir
          rcases hclean with ⟨y, hy, hchild⟩ | ⟨-, hlost⟩
          · left
            exact ⟨y, hy, (samePath_of_directChild hchild hparent).trans hsame⟩
          · right
            rw [← listed_congr hsame]
            exact hlost f hf hparent
        · left
          exact ⟨f, mem_onRemoveDir_files.mpr ⟨hf, hparent⟩, hsame⟩
      · right
        exact covered_removeDir hcovered

/-- A call leaves what is logged collapsed exactly when it is clean. -/
theorem collapsed_next_iff (hinv : Inv components s) (h : Collapsed components s) :
  Collapsed components (s.next components x) ↔ Clean components s x
  := by
  have hfiles := hinv.collapsed_iff.mp h
  rw [hinv.next.collapsed_iff]
  obtain ⟨event, now⟩ := x
  cases event with
  | removeFile f => exact filesCollapsed_removeFile hfiles
  | removeDir d => exact filesCollapsed_removeDir hinv hfiles
  | timer =>
      rw [Clean, iff_true, State.next, FileRemoveLogControl.onTimer]
      by_cases hwaiting : s.control.Waiting now
      · simpa only [if_pos hwaiting] using hfiles
      · simp only [if_neg hwaiting]
        exact ⟨nofun, nofun⟩

theorem collapsed_start (connId : ℤ) (instant : ℕ) :
  Collapsed components (start connId instant)
  := ⟨nofun, nofun⟩

/-- In every state of a run what `on_timer` would log is collapsed, exactly when every call of the
run is clean. -/
theorem collapsed_iff_of_run {connId : ℤ} {instant : ℕ} {h : List (State × (Event × ℕ))}
    (hrun : Run (Step components) (start connId instant) h s) :
  ((∀ y ∈ h, Collapsed components y.1) ∧ Collapsed components s)
    ↔ ∀ y ∈ h, Clean components y.1 y.2
  := by
  apply hrun.forall_iff (Clean components) (fun s => Inv components s ∧ Collapsed components s)
    (Collapsed components) ⟨Inv.start connId instant, collapsed_start connId instant⟩
  · exact fun _ hinv => hinv.2
  · rintro s x _ ⟨hinv, hbefore⟩ hclean rfl
    exact ⟨hinv.next, (collapsed_next_iff hinv hbefore).mpr hclean⟩
  · rintro s x _ ⟨hinv, hbefore⟩ rfl hafter
    exact (collapsed_next_iff hinv hbefore).mp hafter

/-- A tree is removed from the bottom: its directories end up in the outermost one. -/
def sampleCalls : List (Event × ℕ) :=
  [(.removeFile ⟨0, "/b/f"⟩, 1), (.removeDir ⟨0, "/a/b/c"⟩, 2), (.removeDir ⟨0, "/a/b"⟩, 3),
    (.removeDir ⟨0, "/a"⟩, 4), (.removeDir ⟨0, "/a/d"⟩, 5)]

theorem collapsed_sample :
  let s := sampleCalls.foldl (next (HostPath.components .unix)) (start 1 0)
  Collapsed (HostPath.components .unix) s
    ∧ (s.control.onTimer 2000000000).1 = [⟨0, 1, "/b/f", false⟩, ⟨0, 1, "/a", true⟩]
  := by
  have hrun := Run.of_next (R := Step (HostPath.components .unix)) (fun _ _ => rfl) sampleCalls
    (start 1 0)
  apply And.intro
  · apply ((collapsed_iff_of_run hrun).mpr _).2
    decide
  · decide

/-- A directory is removed behind its file. -/
def fileFirst : List (Event × ℕ) :=
  [(.removeFile ⟨0, "/a/f"⟩, 1), (.removeDir ⟨0, "/a"⟩, 2)]

/-- The file is logged next to its directory. -/
theorem not_collapsed :
  ¬ ∀ (h : List (State × (Event × ℕ))) (s : State),
    Run (Step (HostPath.components .unix)) (start 1 0) h s →
      Collapsed (HostPath.components .unix) s
  := by
  intro hall
  have hrun := Run.of_next (R := Step (HostPath.components .unix)) (fun _ _ => rfl) fileFirst
    (start 1 0)
  have hcollapsed := hall _ _ hrun
  apply hcollapsed.apart ⟨0, 1, "/a/f", false⟩ _ ⟨0, 1, "/a", true⟩ _ rfl
  · decide
  · decide
  · decide

end VynxDesk.RemoveLog
