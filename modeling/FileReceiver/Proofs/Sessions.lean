/-
# Sessions in order

In every state that a receiver can reach, the files of the current session lie
in the folder for received files and stand apart, whatever stands on the disk
(`Tidy`), and no link has come up where there was none (`Orderly`). Cancelling
a session takes nothing away but staging files of what is not complete.

Key definitions: `Disk.Linkless`, `Disk.LinkFree`, `Session.Tidy`,
`Receiver.Tidy`, `Receiver.Orderly`.
Key theorems: `Transfer.LiesIn.placedIn`, `Session.removeStaging_edits`,
`Receiver.Move.tidy`, `Receiver.Move.orderly`, `Receiver.orderly_run`.
-/
import FileReceiver.Proofs.Claiming
import FileReceiver.Proofs.Moves
import FileReceiver.Proofs.Receiving

namespace FileReceiver

variable {d d' : Disk} {folder : Path} {loc : Location} {name : String} {t u : Transfer}

/-! ### Disks without links -/

/-- No entry of the folder is a link. -/
def Disk.Linkless (d : Disk) (folder : Path) : Prop :=
  ∀ name, d.NoLink name (d.folderAt folder)

/-- Nowhere on the disk stands a link. -/
def Disk.LinkFree (d : Disk) : Prop :=
  ∀ loc target, d.get? loc ≠ some (.link target)

theorem Disk.linkFree_empty (workingFolder : Location) (faults : List (Option Fault)) :
    (Disk.mk ∅ workingFolder faults).LinkFree := fun loc target => by
  simp only [Disk.get?]
  split <;> simp

theorem Disk.LinkFree.linkless (h : d.LinkFree) (folder : Path) : d.Linkless folder :=
  fun _ _ target _ => h _ target

theorem Disk.LinkFree.keeps (h : d.LinkFree) (hk : d.Keeps d') : d'.LinkFree :=
  fun loc target hl => h loc target ((hk.link loc target).mp hl)

theorem Disk.Linkless.edits {locs : List Location} (h : d.Linkless folder) (he : d.Edits locs d') :
    d'.Linkless folder := fun name loc target hloc hl =>
  h name loc target (folderAt_mono he.keeps_back hloc) ((he.link target).mp hl)

theorem Disk.Linkless.entryAt? (h : d.Linkless folder) (hname : FileName.IsPlain name.toList)
    (target : String) : d.entryAt? (folder.join name) ≠ some (.link target) := by
  unfold Disk.entryAt?
  split
  · rename_i place hr
    obtain ⟨loc, hloc, rfl⟩ := resolve_join_ok hname (Or.inl rfl) hr
    exact h name loc target hloc
  · simp

/-- In a folder without links the two files of a transfer have places of their own. -/
theorem Transfer.LiesIn.placedIn (h : t.LiesIn folder name) (hd : d.Linkless folder)
    (hloc : d.IsAt folder loc) :
    t.Placed d (loc ++ [name ++ FileName.stagingSuffix]) (loc ++ [name]) := by
  have hpart := FileName.plain_staged h.plain
  refine ⟨?_, ?_, by simpa using FileName.staged_ne name⟩
  · rw [h.staging]
    exact Disk.aims_join hpart hloc fun target => hd.entryAt? hpart target
  · rw [h.final]
    exact Disk.aims_join h.plain hloc fun target => hd.entryAt? h.plain target

theorem Transfer.LiesIn.placed (h : t.LiesIn folder name) (hd : d.LinkFree)
    (hloc : d.IsAt folder loc) :
    t.Placed d (loc ++ [name ++ FileName.stagingSuffix]) (loc ++ [name]) :=
  h.placedIn (hd.linkless folder) hloc

/-! ### Taking staging files away -/

theorem Session.removeStaging_cons (t : Transfer) (rest : List Transfer) (d : Disk) :
    (removeStaging (t :: rest) d).2 =
      (removeStaging rest (if t.completed then d else (d.remove t.stagingPath).2)).2 := by
  rw [removeStaging]
  split
  · rfl
  · rcases d.remove t.stagingPath with ⟨_ | _, removed⟩ <;> rfl

/-- What cancelling takes away: staging files of what is not complete, and nothing else. -/
theorem Session.removeStaging_edits (files : List Transfer) (hd : d.LinkFree)
    (hloc : d.IsAt folder loc) (hlies : ∀ t ∈ files, ∃ name, t.LiesIn folder name) :
    ∃ locs, d.Edits locs (removeStaging files d).2 ∧ ∀ place ∈ locs, ∃ t ∈ files,
      t.completed = false ∧
        ∃ name, t.LiesIn folder name ∧ place = loc ++ [name ++ FileName.stagingSuffix] := by
  induction files generalizing d with
  | nil => exact ⟨[], Disk.Edits.refl d, nofun⟩
  | cons t rest ih =>
    have hrest : ∀ t ∈ rest, ∃ name, t.LiesIn folder name :=
      fun u hu => hlies u (List.mem_cons_of_mem t hu)
    rw [removeStaging_cons]
    by_cases hdone : t.completed = true
    · rw [if_pos hdone]
      obtain ⟨locs, hedit, hlocs⟩ := ih hd hloc hrest
      refine ⟨locs, hedit, fun place hplace => ?_⟩
      obtain ⟨u, hu, hplace⟩ := hlocs place hplace
      exact ⟨u, List.mem_cons_of_mem t hu, hplace⟩
    rw [if_neg hdone]
    obtain ⟨name, hname⟩ := hlies t List.mem_cons_self
    have haims := (hname.placed hd hloc).aimsStaging
    have hedit := d.remove_edits haims
    obtain ⟨locs, hedits, hlocs⟩ := ih (hd.keeps hedit.keeps) (hloc.edits hedit) hrest
    refine ⟨(loc ++ [name ++ FileName.stagingSuffix]) :: locs,
      (hedit.mono (by simp)).trans (hedits.mono (by simp)), fun place hplace => ?_⟩
    rcases List.mem_cons.mp hplace with rfl | hplace
    · exact ⟨t, List.mem_cons_self, eq_false_of_ne_true hdone, name, hname, rfl⟩
    · obtain ⟨u, hu, hplace⟩ := hlocs place hplace
      exact ⟨u, List.mem_cons_of_mem t hu, hplace⟩

/-! ### The files of the current session -/

theorem Receiver.file?_eq {r : Receiver} {s : Session} (hs : r.session = some s)
    (fileId : String) : r.file? fileId = s.file? fileId := by
  rw [file?, hs, Option.bind_some]

theorem Session.mem_of_file? {s : Session} {fileId : String} (h : s.file? fileId = some t) :
    t ∈ s.files :=
  List.mem_of_find?_eq_some h

theorem Session.fileId_of_file? {s : Session} {fileId : String} (h : s.file? fileId = some t) :
    t.fileId = fileId := by
  simpa using List.find?_some h

/-- Putting a record back keeps every id. -/
theorem Session.file?_update (s : Session) (u : Transfer) (fileId : String) :
    (s.update u).file? fileId =
      (s.file? fileId).map fun old => if old.fileId = u.fileId then u else old := by
  unfold file? update
  rw [List.find?_map]
  have hkeeps : ((fun t : Transfer => t.fileId == fileId) ∘
      fun old => if old.fileId = u.fileId then u else old) = fun t => t.fileId == fileId := by
    funext old
    simp only [Function.comp_apply]
    split
    · rename_i hid
      rw [hid]
    · rfl
  rw [hkeeps]

/-- A record that is put back is the record of its file. -/
theorem Session.file?_update_self {s : Session} (hid : u.fileId = t.fileId)
    (h : s.file? t.fileId = some t) : (s.update u).file? t.fileId = some u := by
  rw [file?_update, h, Option.map_some, if_pos hid.symm]

/-- The records of the other files stay. -/
theorem Session.file?_update_ne (s : Session) {fileId : String} (hne : fileId ≠ u.fileId) :
    (s.update u).file? fileId = s.file? fileId := by
  rw [file?_update]
  cases h : s.file? fileId with
  | none => rfl
  | some old => rw [Option.map_some, if_neg (fileId_of_file? h ▸ hne)]

/-- Records of two files can be put back in either order. -/
theorem Session.update_comm (s : Session) (hne : t.fileId ≠ u.fileId) :
    (s.update t).update u = (s.update u).update t := by
  unfold update
  simp only [List.map_map, Session.mk.injEq, true_and]
  apply List.map_congr_left
  intro old _
  simp only [Function.comp_apply]
  by_cases ht : old.fileId = t.fileId
  · have hold : old.fileId ≠ u.fileId := fun hu => hne (ht.symm.trans hu)
    rw [if_pos ht, if_neg hold, if_pos ht, if_neg hne]
  · by_cases hu : old.fileId = u.fileId
    · rw [if_neg ht, if_pos hu, if_neg hne.symm]
    · rw [if_neg ht, if_neg hu, if_neg ht]

theorem Session.mem_update {s : Session} {t' x : Transfer} (h : x ∈ (s.update t').files) :
    x = t' ∨ x ∈ s.files ∧ x.fileId ≠ t'.fileId := by
  obtain ⟨old, hold, rfl⟩ := List.mem_map.mp h
  by_cases hid : old.fileId = t'.fileId
  · exact Or.inl (if_pos hid)
  · rw [if_neg hid]
    exact Or.inr ⟨hold, hid⟩

/-- A transfer that has kept its id and its paths stands apart from the other files of its session
as it did. -/
theorem Session.apart_update {s : Session} {t' : Transfer}
    (hapart : ∀ t ∈ s.files, ∀ u ∈ s.files, t = u ∨ t.Apart u) (ht : t ∈ s.files)
    (hid : t'.fileId = t.fileId) (hfinal : t'.finalPath = t.finalPath)
    (hstaging : t'.stagingPath = t.stagingPath) :
    ∀ x ∈ (s.update t').files, ∀ y ∈ (s.update t').files, x = y ∨ x.Apart y := by
  have hother : ∀ u ∈ s.files, u.fileId ≠ t'.fileId → t'.Apart u := by
    intro u hu hne
    rcases hapart t ht u hu with rfl | hapart
    · exact absurd hid.symm hne
    · constructor
      · rw [hfinal]
        exact hapart.finals
      · rw [hfinal]
        exact hapart.finalStaging
      · rw [hstaging]
        exact hapart.stagingFinal
      · rw [hstaging]
        exact hapart.stagings
  intro x hx y hy
  rcases mem_update hx with rfl | ⟨hxs, hxid⟩
  · rcases mem_update hy with rfl | ⟨hys, hyid⟩
    · exact Or.inl rfl
    · exact Or.inr (hother y hys hyid)
  · rcases mem_update hy with rfl | ⟨hys, -⟩
    · exact Or.inr (hother x hxs hxid).symm
    · exact hapart x hxs y hys

/-- The files of a session lie in a folder and stand apart. -/
structure Session.Tidy (s : Session) (folder : Path) : Prop where
  lies : ∀ t ∈ s.files, ∃ name, t.LiesIn folder name
  apart : ∀ t ∈ s.files, ∀ u ∈ s.files, t = u ∨ t.Apart u

/-- A chunk leaves a session tidy. -/
theorem Session.Tidy.update {s : Session} {t' : Transfer} (hs : s.Tidy folder) (ht : t ∈ s.files)
    (hid : t'.fileId = t.fileId) (hfinal : t'.finalPath = t.finalPath)
    (hstaging : t'.stagingPath = t.stagingPath) : (s.update t').Tidy folder := by
  refine ⟨fun x hx => ?_, Session.apart_update hs.apart ht hid hfinal hstaging⟩
  rcases Session.mem_update hx with rfl | ⟨hx, -⟩
  · obtain ⟨name, hname⟩ := hs.lies t ht
    exact ⟨name, hname.plain, hfinal.trans hname.final, hstaging.trans hname.staging⟩
  · exact hs.lies x hx

namespace Receiver

/-- The current session is tidy, whatever stands on the disk. -/
def Tidy (r : Receiver) : Prop :=
  ∀ s, r.session = some s → s.Tidy r.outputFolder

/-- The files of the current session lie in the folder for received files and stand apart, and the
disk has no links. -/
structure Orderly (r : Receiver) : Prop where
  linkFree : r.disk.LinkFree
  lies : ∀ s, r.session = some s → ∀ t ∈ s.files, ∃ name, t.LiesIn r.outputFolder name
  apart : ∀ s, r.session = some s → ∀ t ∈ s.files, ∀ u ∈ s.files, t = u ∨ t.Apart u

variable {r r' : Receiver} {o : Operation}

theorem Orderly.tidy (hr : r.Orderly) : r.Tidy := fun s hs => ⟨hr.lies s hs, hr.apart s hs⟩

theorem Tidy.orderly (hr : r.Tidy) (hd : r.disk.LinkFree) : r.Orderly :=
  ⟨hd, fun s hs => (hr s hs).lies, fun s hs => (hr s hs).apart⟩

theorem Move.outputFolder (h : r.Move o r') : r'.outputFolder = r.outputFolder := by
  cases h <;> rfl

theorem tidy_admitted (r : Receiver) (id : String) (manifest : Manifest) :
    Session.Tidy ⟨id, r.admitted manifest⟩ r.outputFolder := by
  have hsep := Admission.separate_ofManifest r.policy r.outputFolder manifest
  exact ⟨fun t ht => hsep.lies t (List.mem_reverse.mp ht),
    fun t ht u hu => hsep.apart t (List.mem_reverse.mp ht) u (List.mem_reverse.mp hu)⟩

/-- **Every move keeps the session tidy.** -/
theorem Move.tidy (h : r.Move o r') (hr : r.Tidy) : r'.Tidy := by
  cases h with
  | refused | paired | unprepared => exact hr
  | opened id manifest d =>
    intro s hs
    cases hs
    exact r.tidy_admitted id manifest
  | written fileId bytes s t result t' d' current file received =>
    intro s' hs'
    cases hs'
    obtain ⟨hid, hfinal, hstaging⟩ := Transfer.receive_paths received
    exact (hr s current).update (Session.mem_of_file? file) hid hfinal hstaging
  | cancelled => nofun

/-- **Every move keeps order.** -/
theorem Move.orderly (h : r.Move o r') (hr : r.Orderly) : r'.Orderly := by
  obtain ⟨loc, hloc⟩ := r.disk.exists_isAt r.outputFolder
  have htidy := h.tidy hr.tidy
  refine htidy.orderly ?_
  cases h with
  | refused | paired => exact hr.linkFree
  | unprepared _ _ _ _ grows | opened _ _ _ _ grows => exact hr.linkFree.keeps grows.keeps
  | written fileId bytes s t result t' d' current file received =>
    obtain ⟨name, hname⟩ := hr.lies s current t (Session.mem_of_file? file)
    have hedits := Transfer.receive_edits (hname.placed hr.linkFree hloc) bytes
    rw [received] at hedits
    exact hr.linkFree.keeps hedits.keeps
  | cancelled s _ current =>
    obtain ⟨locs, hedits, -⟩ := Session.removeStaging_edits s.files hr.linkFree hloc
      (hr.lies s current)
    exact hr.linkFree.keeps hedits.keeps

theorem orderly_run (hr : r.Orderly) (operations : List Operation) :
    (r.run operations).Orderly :=
  run_induction (fun _ _ _ hmove => hmove.orderly) operations hr

end Receiver
end FileReceiver
