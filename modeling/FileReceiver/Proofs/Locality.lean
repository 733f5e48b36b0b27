/-
# Calls on the entries of a folder

A routine whose calls are about entries of one folder that have certain names
is local, as long as no entry of the folder is a link. It changes none but
these entries (`Routine.run_editsIn`), and what it answers and leaves there
hangs on these entries and on its own faults, on nothing else: on two disks
that look alike to it, it does the same (`Routine.run_alike`).

Key definitions: `Path.IsEntry`, `Disk.EntryAt`, `Disk.EditsIn`, `Disk.Alike`.
Key theorems: `Call.make_editsIn`, `Routine.run_editsIn`, `Call.make_alike`,
`Routine.run_alike`.
-/
import FileReceiver.Proofs.Routines
import FileReceiver.Proofs.Sessions

namespace FileReceiver

open FileName (IsPlain)

/-- The path of an entry of a folder that has one of the given names. -/
def Path.IsEntry (folder : Path) (names : String → Prop) (p : Path) : Prop :=
  ∃ name, names name ∧ IsPlain name.toList ∧ p = folder.join name

theorem Path.IsEntry.any {folder p : Path} {names : String → Prop} (h : folder.IsEntry names p) :
    folder.IsEntry (fun _ => True) p := by
  obtain ⟨name, -, hplain, hp⟩ := h
  exact ⟨name, trivial, hplain, hp⟩

variable {folder : Path} {names : String → Prop} {d d' d'' e e' : Disk} {loc : Location} {p : Path}

namespace Disk

/-- The location of an entry of a folder that has one of the given names. -/
def EntryAt (d : Disk) (folder : Path) (names : String → Prop) (loc : Location) : Prop :=
  ∃ at_ name, d.folderAt folder = .ok at_ ∧ names name ∧ IsPlain name.toList ∧ loc = at_ ++ [name]

/-- No more than entries of the folder has been edited, of those that have the given names. -/
def EditsIn (d : Disk) (folder : Path) (names : String → Prop) (d' : Disk) : Prop :=
  ∃ locs, (∀ loc ∈ locs, d.EntryAt folder names loc) ∧ d.Edits locs d'

theorem EditsIn.of_nil (h : d.Edits [] d') : d.EditsIn folder names d' := ⟨[], nofun, h⟩

theorem EditsIn.one (hloc : d.EntryAt folder names loc) (h : d.Edits [loc] d') :
    d.EditsIn folder names d' :=
  ⟨[loc], fun place hplace => by rwa [List.mem_singleton.mp hplace], h⟩

/-- The folder stays where it is, or is as little there as before. -/
theorem EditsIn.folderAt (h : d.EditsIn folder names d') :
    d'.folderAt folder = d.folderAt folder := by
  obtain ⟨locs, hlocs, hedits⟩ := h
  rcases hat : d.folderAt folder with error | at_
  · have hnone : locs = [] := by
      apply List.eq_nil_iff_forall_not_mem.mpr
      intro loc hloc
      obtain ⟨at_, name, hok, -⟩ := hlocs loc hloc
      rw [hat] at hok
      cases hok
    subst hnone
    rw [← hat]
    exact folderAt_congr hedits.workingFolder hedits.get?_of_nil folder
  · exact folderAt_mono hedits.keeps hat

theorem EditsIn.entryAt (h : d.EditsIn folder names d') {others : String → Prop} :
    d'.EntryAt folder others loc ↔ d.EntryAt folder others loc := by
  unfold EntryAt
  rw [h.folderAt]

theorem EditsIn.trans (h : d.EditsIn folder names d') (h' : d'.EditsIn folder names d'') :
    d.EditsIn folder names d'' := by
  obtain ⟨locs, hlocs, hedits⟩ := h
  obtain ⟨locs', hlocs', hedits'⟩ := h'
  refine ⟨locs ++ locs', fun loc hloc => ?_,
    (hedits.mono (List.subset_append_left _ _)).trans (hedits'.mono (List.subset_append_right _ _))⟩
  rcases List.mem_append.mp hloc with hloc | hloc
  · exact hlocs loc hloc
  · exact (EditsIn.entryAt ⟨locs, hlocs, hedits⟩).mp (hlocs' loc hloc)

theorem EditsIn.linkless (h : d.EditsIn folder names d') (hd : d.Linkless folder) :
    d'.Linkless folder := by
  obtain ⟨locs, -, hedits⟩ := h
  exact hd.edits hedits

theorem EditsIn.get?_eq (h : d.EditsIn folder names d') (hloc : ¬ d.EntryAt folder names loc) :
    d'.get? loc = d.get? loc := by
  obtain ⟨locs, hlocs, hedits⟩ := h
  exact hedits.get?_eq fun hmem => hloc (hlocs loc hmem)

end Disk

/-! ### What is changed -/

namespace Path.IsEntry

/-- The path of an entry leads to the entry or nowhere. -/
theorem resolve (h : folder.IsEntry names p) (hd : d.Linkless folder) {lastName : LastName}
    {place : Place} (hr : d.resolve lastName p = .ok place) :
    d.EntryAt folder names place.location ∧ d.Aims p place.location := by
  obtain ⟨name, hname, hplain, rfl⟩ := h
  obtain ⟨at_, hat, rfl⟩ := Disk.resolve_join_ok hplain (Or.inr (hd name)) hr
  exact ⟨⟨at_, name, hat, hname, hplain, rfl⟩,
    Disk.aims_join hplain (Disk.isAt_of_folderAt hat) (hd.entryAt? hplain)⟩

end Path.IsEntry

/-- **A call changes the entries that it is about**, and opens no others. -/
theorem Call.make_editsIn {A : Type} {c : Call A} {files : List Location} (hd : d.Linkless folder)
    (hfiles : ∀ file ∈ files, d.EntryAt folder names file)
    (hc : c.OnFiles (folder.IsEntry names) files) :
    d.EditsIn folder names (c.make d).2 ∧
      ∀ file ∈ c.opened (c.make d).1, d.EntryAt folder names file := by
  cases c with
  | openFresh p mode =>
    rcases hopen : d.openFresh p mode with ⟨res, d'⟩
    simp only [make, hopen]
    rcases Disk.openFresh_cases hopen with ⟨error, rfl, hedit⟩ | ⟨place, hr, rfl, hedit, -⟩
    · exact ⟨.of_nil hedit, by simp [opened]⟩
    · have hloc := (hc.resolve hd hr).1
      exact ⟨.one hloc hedit, by simpa [opened] using hloc⟩
  | openEnd p =>
    rcases hopen : d.openEnd p with ⟨res, d'⟩
    simp only [make, hopen]
    obtain ⟨hedit, ⟨error, rfl⟩ | ⟨place, hr, rfl, -⟩⟩ := Disk.openEnd_cases hopen
    · exact ⟨.of_nil hedit, by simp [opened]⟩
    · exact ⟨.of_nil hedit, by simpa [opened] using (hc.resolve hd hr).1⟩
  | write file bytes =>
    exact ⟨.one (hfiles file hc) (d.write_edits file bytes), by simp [opened]⟩
  | setLength file length =>
    exact ⟨.one (hfiles file hc) (d.setLength_edits file length), by simp [opened]⟩
  | read p => exact ⟨.of_nil (Disk.read_cases rfl).1, by simp [opened]⟩
  | remove p =>
    refine ⟨?_, by simp [opened]⟩
    rcases hremove : d.remove p with ⟨res, d'⟩
    simp only [make, hremove]
    rcases Disk.remove_takes hremove with ⟨-, rfl⟩ | ⟨place, -, -, hr, -⟩
    · exact .of_nil d.edits_later
    · obtain ⟨hloc, haims⟩ := hc.resolve hd hr
      have hedit := d.remove_edits haims
      rw [hremove] at hedit
      exact .one hloc hedit
  | rename old new =>
    refine ⟨?_, by simp [opened]⟩
    rcases hrename : d.rename old new with ⟨res, d'⟩
    simp only [make, hrename]
    rcases Disk.rename_moves hrename with ⟨-, rfl⟩ | ⟨source, target, -, -, -, hrs, hrt, -⟩
    · exact .of_nil d.edits_later
    · obtain ⟨hsource, haims⟩ := hc.1.resolve hd hrs
      obtain ⟨htarget, haimt⟩ := hc.2.resolve hd hrt
      have hedit := Disk.rename_edits haims haimt
      rw [hrename] at hedit
      refine ⟨[source.location, target.location], fun loc hloc => ?_, hedit⟩
      rcases List.mem_cons.mp hloc with rfl | hloc
      · exact hsource
      · rwa [List.mem_singleton.mp hloc]
  | probe | makeFolder | isFolder => exact hc.elim

/-- **A routine on entries of a folder changes no others.** -/
theorem Routine.run_editsIn {α : Type} {p : Routine α} {files : List Location}
    (hp : p.Makes (Call.OnFiles (folder.IsEntry names)) files) (hd : d.Linkless folder)
    (hfiles : ∀ file ∈ files, d.EntryAt folder names file) :
    d.EditsIn folder names (p.run d).2 := by
  induction p generalizing d files with
  | done a => exact .of_nil (.refl d)
  | call c next ih =>
    obtain ⟨hedits, hopened⟩ := Call.make_editsIn hd hfiles hp.1
    refine hedits.trans (ih (c.make d).1 (hp.2 _) (hedits.linkless hd) fun file hfile => ?_)
    rw [hedits.entryAt]
    rcases List.mem_append.mp hfile with hfile | hfile
    · exact hopened file hfile
    · exact hfiles file hfile

/-! ### What is answered -/

namespace Disk

/-- Two disks have the same faults to come, and the same at some locations. -/
structure SameAt (L : Location → Prop) (d e : Disk) : Prop where
  faults : e.faults = d.faults
  entry : ∀ loc, L loc → e.get? loc = d.get? loc

/-- Two outcomes of a call have the same answer, and disks that are the same at some locations. -/
def Agrees {A : Type} (L : Location → Prop) (x y : A × Disk) : Prop :=
  y.1 = x.1 ∧ SameAt L x.2 y.2

/-- Two disks are the same to what is about certain entries of a folder. -/
structure Alike (folder : Path) (names : String → Prop) (d e : Disk) : Prop extends
    SameAt (d.EntryAt folder names) d e where
  folderAt : e.folderAt folder = d.folderAt folder
  linkless : d.Linkless folder
  linkless' : e.Linkless folder

variable {L : Location → Prop}

theorem SameAt.put (h : SameAt L d e) (loc : Location) (x : Entry) :
    SameAt L (d.put loc x) (e.put loc x) := by
  refine ⟨h.faults, fun place hplace => ?_⟩
  rw [get?_put, get?_put, h.entry place hplace]

theorem SameAt.erase (h : SameAt L d e) (loc : Location) :
    SameAt L (d.erase loc) (e.erase loc) := by
  refine ⟨h.faults, fun place hplace => ?_⟩
  rw [get?_erase, get?_erase, h.entry place hplace]

theorem SameAt.later (h : SameAt L d e) : SameAt L d.later e.later :=
  ⟨congrArg List.tail h.faults, h.entry⟩

theorem SameAt.extend (h : SameAt L d e) (hloc : L loc) (bytes : ByteArray) :
    SameAt L (d.extend loc bytes) (e.extend loc bytes) := by
  unfold Disk.extend
  rw [h.entry loc hloc]
  split
  · exact h.put loc _
  · exact h

theorem draw_eq (d : Disk) : d.draw = (d.faults.head?.join, d.later) := by
  unfold draw
  cases hf : d.faults with
  | nil => simp [later_of_quiet hf]
  | cons fault rest => simp [later, hf]

theorem SameAt.attempt {A : Type} {call : Disk → Outcome A} (h : SameAt L d e)
    (hcall : Agrees L (call d.later) (call e.later)) :
    Agrees L (d.attempt call) (e.attempt call) := by
  unfold Disk.attempt
  rw [draw_eq, draw_eq, h.faults]
  cases d.faults.head?.join with
  | none => exact hcall
  | some fault => exact ⟨rfl, h.later⟩

theorem folderAt_later (d : Disk) (folder : Path) :
    d.later.folderAt folder = d.folderAt folder := by
  apply folderAt_congr
  · rfl
  · exact fun _ => rfl

theorem entryAt_later (d : Disk) : d.later.EntryAt folder names = d.EntryAt folder names := by
  funext loc
  rw [EntryAt, folderAt_later, EntryAt]

theorem lastIn_congr (d e : Disk) : e.lastIn = d.lastIn := by
  funext lastName name folder
  unfold lastIn lookUp
  split
  · rfl
  · split <;> rfl

theorem lookAt_congr {place : Place} (h : e.get? place.location = d.get? place.location) :
    e.lookAt place = d.lookAt place := by
  unfold lookAt
  unfold Place.location at h
  split
  · rename_i name hlast
    rw [hlast] at h
    rw [lookUp, lookUp, h]
  · rw [Place.location, h]

namespace Alike

theorem later (h : Alike folder names d e) : Alike folder names d.later e.later where
  toSameAt := by
    rw [entryAt_later]
    exact h.toSameAt.later
  folderAt := by rw [folderAt_later, folderAt_later, h.folderAt]
  linkless := h.linkless.edits (d.edits_later : d.Edits [] d.later)
  linkless' := h.linkless'.edits (e.edits_later : e.Edits [] e.later)

/-- Alike disks lead the paths of the entries to the same places. -/
theorem resolve (h : Alike folder names d e) (hp : folder.IsEntry names p) (lastName : LastName) :
    e.resolve lastName p = d.resolve lastName p := by
  obtain ⟨name, -, hplain, rfl⟩ := hp
  rw [resolve_join hplain (Or.inr (h.linkless' name)),
    resolve_join hplain (Or.inr (h.linkless name)), h.folderAt, lastIn_congr]

/-- There stands the same. -/
theorem get?_eq (h : Alike folder names d e) (hp : folder.IsEntry names p) {lastName : LastName}
    {place : Place} (hr : d.resolve lastName p = .ok place) :
    e.get? place.location = d.get? place.location :=
  h.entry _ (hp.resolve h.linkless hr).1

variable (h : Alike folder names d e)

include h

/-- A call that follows the path of an entry agrees on both disks, if it does where it has found the
entry. -/
theorem follow {A : Type} {lastName : LastName} {found : Disk → Place → Outcome A}
    (hp : folder.IsEntry names p)
    (hfound : ∀ place, e.later.get? place.location = d.later.get? place.location →
      SameAt (d.EntryAt folder names) d.later e.later →
      Agrees (d.EntryAt folder names) (found d.later place) (found e.later place)) :
    Agrees (d.EntryAt folder names)
      (d.attempt fun d => match d.resolve lastName p with
        | .error error => (.error error, d)
        | .ok place => found d place)
      (e.attempt fun e => match e.resolve lastName p with
        | .error error => (.error error, e)
        | .ok place => found e place) := by
  have hl := h.later
  have hsame : SameAt (d.EntryAt folder names) d.later e.later := h.toSameAt.later
  apply h.toSameAt.attempt
  rw [hl.resolve hp]
  cases hr : d.later.resolve lastName p with
  | error error => exact ⟨rfl, hsame⟩
  | ok place => exact hfound place (hl.get?_eq hp hr) hsame

theorem openFresh (hp : folder.IsEntry names p) (mode : Nat) :
    Agrees (d.EntryAt folder names) (d.openFresh p mode) (e.openFresh p mode) := by
  apply h.follow hp
  intro place hget hsame
  dsimp only
  rw [hget]
  split
  · exact ⟨rfl, hsame.put _ _⟩
  · exact ⟨rfl, hsame.put _ _⟩
  · exact ⟨rfl, hsame⟩
  · exact ⟨rfl, hsame⟩
  · exact ⟨rfl, hsame⟩

theorem openEnd (hp : folder.IsEntry names p) :
    Agrees (d.EntryAt folder names) (d.openEnd p) (e.openEnd p) := by
  apply h.follow hp
  intro place hget hsame
  rw [hget]
  split
  · exact ⟨rfl, hsame⟩
  · exact ⟨rfl, hsame⟩
  · exact ⟨rfl, hsame⟩
  · split <;> exact ⟨rfl, hsame⟩

theorem read (hp : folder.IsEntry names p) :
    Agrees (d.EntryAt folder names) (d.read p) (e.read p) := by
  apply h.follow hp
  intro place hget hsame
  rw [hget]
  split
  · exact ⟨rfl, hsame⟩
  · exact ⟨rfl, hsame⟩
  · split <;> exact ⟨rfl, hsame⟩
  · split <;> exact ⟨rfl, hsame⟩
  · exact ⟨rfl, hsame⟩

theorem remove (hp : folder.IsEntry names p) :
    Agrees (d.EntryAt folder names) (d.remove p) (e.remove p) := by
  apply h.follow hp
  intro place hget hsame
  rw [lookAt_congr hget]
  split
  · exact ⟨rfl, hsame⟩
  · exact ⟨rfl, hsame⟩
  · exact ⟨rfl, hsame⟩
  · split
    · exact ⟨rfl, hsame⟩
    · exact ⟨rfl, hsame.erase _⟩

theorem rename {old new : Path} (hold : folder.IsEntry names old)
    (hnew : folder.IsEntry names new) :
    Agrees (d.EntryAt folder names) (d.rename old new) (e.rename old new) := by
  apply h.toSameAt.attempt
  have hl := h.later
  have hsame : SameAt (d.EntryAt folder names) d.later e.later := h.toSameAt.later
  rw [hl.resolve hold, hl.resolve hnew]
  cases hrs : d.later.resolve .kept old with
  | error error => exact ⟨rfl, hsame⟩
  | ok source =>
    cases hrt : d.later.resolve .kept new with
    | error error => exact ⟨rfl, hsame⟩
    | ok target =>
      dsimp only
      rw [lookAt_congr (hl.get?_eq hold hrs), lookAt_congr (hl.get?_eq hnew hrt)]
      split
      · exact ⟨rfl, hsame⟩
      split
      · exact ⟨rfl, hsame⟩
      split
      · exact ⟨rfl, hsame⟩
      · exact ⟨rfl, hsame⟩
      · exact ⟨rfl, hsame⟩
      · exact ⟨rfl, hsame⟩
      split
      · exact ⟨rfl, hsame⟩
      split
      · exact ⟨rfl, hsame⟩
      · exact ⟨rfl, (hsame.erase _).put _ _⟩

end Alike

variable {L : Location → Prop}

theorem SameAt.write (h : SameAt L d e) (hloc : L loc) (bytes : ByteArray) :
    Agrees L (d.write loc bytes) (e.write loc bytes) := by
  unfold Disk.write
  split
  · exact ⟨rfl, h⟩
  have hl := h.later
  rw [draw_eq, draw_eq, h.faults]
  cases d.faults.head?.join with
  | some fault => exact ⟨rfl, hl.extend hloc _⟩
  | none =>
    dsimp only
    rw [hl.entry loc hloc]
    split
    · exact ⟨rfl, hl⟩
    · exact ⟨rfl, hl.extend hloc _⟩

theorem SameAt.setLength (h : SameAt L d e) (hloc : L loc) (length : Nat) :
    Agrees L (d.setLength loc length) (e.setLength loc length) := by
  apply h.attempt
  rw [h.later.entry loc hloc]
  split
  · exact ⟨rfl, h.later.put _ _⟩
  · exact ⟨rfl, h.later⟩

end Disk

/-- **A call does the same on disks that are alike.** -/
theorem Call.make_alike {A : Type} {c : Call A} {files : List Location}
    (h : Disk.Alike folder names d e) (hfiles : ∀ file ∈ files, d.EntryAt folder names file)
    (hc : c.OnFiles (folder.IsEntry names) files) :
    (c.make e).1 = (c.make d).1 ∧ Disk.Alike folder names (c.make d).2 (c.make e).2 := by
  have hagrees : Disk.Agrees (d.EntryAt folder names) (c.make d) (c.make e) := by
    cases c with
    | openFresh p mode => exact h.openFresh hc mode
    | openEnd p => exact h.openEnd hc
    | write file bytes => exact h.toSameAt.write (hfiles file hc) bytes
    | setLength file length => exact h.toSameAt.setLength (hfiles file hc) length
    | read p => exact h.read hc
    | remove p => exact h.remove hc
    | rename old new => exact h.rename hc.1 hc.2
    | probe | makeFolder | isFolder => exact hc.elim
  have hfiles' : ∀ file ∈ files, e.EntryAt folder names file := fun file hfile => by
    rw [Disk.EntryAt, h.folderAt]
    exact hfiles file hfile
  obtain ⟨hd, -⟩ := Call.make_editsIn h.linkless hfiles hc
  obtain ⟨he, -⟩ := Call.make_editsIn h.linkless' hfiles' hc
  refine ⟨hagrees.1, ?_⟩
  exact
    { faults := hagrees.2.faults
      entry := fun loc hloc => hagrees.2.entry loc (hd.entryAt.mp hloc)
      folderAt := by rw [hd.folderAt, he.folderAt, h.folderAt]
      linkless := hd.linkless h.linkless
      linkless' := he.linkless h.linkless' }

/-- **A routine does the same on disks that are alike.** -/
theorem Routine.run_alike {α : Type} {p : Routine α} {files : List Location}
    (hp : p.Makes (Call.OnFiles (folder.IsEntry names)) files)
    (h : Disk.Alike folder names d e) (hfiles : ∀ file ∈ files, d.EntryAt folder names file) :
    (p.run e).1 = (p.run d).1 ∧ Disk.Alike folder names (p.run d).2 (p.run e).2 := by
  induction p generalizing d e files with
  | done a => exact ⟨rfl, h⟩
  | call c next ih =>
    obtain ⟨hanswer, halike⟩ := Call.make_alike h hfiles hp.1
    obtain ⟨hedits, hopened⟩ := Call.make_editsIn h.linkless hfiles hp.1
    unfold run
    rw [hanswer]
    refine ih (c.make d).1 (hp.2 _) halike fun file hfile => ?_
    rw [hedits.entryAt]
    rcases List.mem_append.mp hfile with hfile | hfile
    · exact hopened file hfile
    · exact hfiles file hfile

/-! ### Routines on different entries -/

namespace Disk

/-- The disk with other faults to come. -/
def facing (d : Disk) (faults : List (Option Fault)) : Disk := { d with faults := faults }

/-- Two disks hold the same. -/
structure Same (d e : Disk) : Prop where
  workingFolder : e.workingFolder = d.workingFolder
  entry : ∀ loc, e.get? loc = d.get? loc

theorem Same.refl (d : Disk) : d.Same d := ⟨rfl, fun _ => rfl⟩

theorem Same.trans (h : d.Same e) (h' : e.Same e') : d.Same e' :=
  ⟨h'.workingFolder.trans h.workingFolder, fun loc => (h'.entry loc).trans (h.entry loc)⟩

theorem Same.folderAt (h : d.Same e) (folder : Path) : e.folderAt folder = d.folderAt folder :=
  folderAt_congr h.workingFolder h.entry folder

theorem Same.entryAt (h : d.Same e) :
    e.EntryAt folder names loc ↔ d.EntryAt folder names loc := by
  unfold EntryAt
  rw [h.folderAt]

theorem Same.linkless (h : d.Same e) (hd : d.Linkless folder) : e.Linkless folder := by
  intro name loc target hloc
  rw [h.folderAt] at hloc
  rw [h.entry]
  exact hd name loc target hloc

theorem Same.facing (h : d.Same e) (faults faults' : List (Option Fault)) :
    (d.facing faults).Same (e.facing faults') :=
  ⟨h.workingFolder, h.entry⟩

theorem same_facing (d : Disk) (faults : List (Option Fault)) : d.Same (d.facing faults) :=
  ⟨rfl, fun _ => rfl⟩

theorem EditsIn.workingFolder (h : d.EditsIn folder names d') :
    d'.workingFolder = d.workingFolder := by
  obtain ⟨locs, -, hedits⟩ := h
  exact hedits.workingFolder

/-- Where the same stands, the same faults to come make two disks alike. -/
theorem Same.alike (h : d.Same e) (hf : e.faults = d.faults) (hd : d.Linkless folder) :
    Alike folder names d e where
  faults := hf
  entry loc _ := h.entry loc
  folderAt := h.folderAt folder
  linkless := hd
  linkless' := h.linkless hd

/-- An entry does not have two names. -/
theorem EntryAt.unless {others : String → Prop} (h : d.EntryAt folder names loc)
    (hdisjoint : ∀ name, names name → ¬ others name) : ¬ d.EntryAt folder others loc := by
  rintro ⟨at_, name, hat, hother, -, rfl⟩
  obtain ⟨found, name', hfound, hname, -, heq⟩ := h
  rw [hat] at hfound
  cases hfound
  have hsame : name = name' := by simpa using heq
  exact hdisjoint name' hname (hsame ▸ hother)

/-- Edits of other entries leave a disk alike, if it is to face the same faults. -/
theorem EditsIn.alike {others : String → Prop} (h : d.EditsIn folder others e)
    (hdisjoint : ∀ name, names name → ¬ others name) (hd : d.Linkless folder)
    (faults : List (Option Fault)) :
    Alike folder names (d.facing faults) (e.facing faults) := by
  have hsame := (d.same_facing faults).folderAt folder
  have hsame' := (e.same_facing faults).folderAt folder
  refine ⟨⟨rfl, fun loc hloc => ?_⟩, ?_, (d.same_facing faults).linkless hd,
    (e.same_facing faults).linkless (h.linkless hd)⟩
  · exact h.get?_eq (EntryAt.unless ((d.same_facing faults).entryAt.mp hloc) hdisjoint)
  · rw [hsame', hsame, h.folderAt]

end Disk

section

variable {α β : Type} {routine : Routine α} {other : Routine β} {others : String → Prop}

/-- A routine does the same where the same stands. -/
theorem Routine.run_same (hp : routine.Makes (Call.OnFiles (folder.IsEntry names)) [])
    (hd : d.Linkless folder) (h : d.Same e) (hf : e.faults = d.faults) :
    (routine.run e).1 = (routine.run d).1 ∧ (routine.run d).2.Same (routine.run e).2 := by
  obtain ⟨hanswer, halike⟩ := Routine.run_alike hp (h.alike hf hd) nofun
  have hedits := Routine.run_editsIn hp hd nofun
  have hedits' := Routine.run_editsIn hp (h.linkless hd) nofun
  refine ⟨hanswer, ?_, fun loc => ?_⟩
  · rw [hedits.workingFolder, hedits'.workingFolder, h.workingFolder]
  by_cases hloc : d.EntryAt folder names loc
  · exact halike.entry loc (hedits.entryAt.mpr hloc)
  · have hloc' : ¬ e.EntryAt folder names loc := fun hentry => hloc (h.entryAt.mp hentry)
    calc (routine.run e).2.get? loc = e.get? loc := hedits'.get?_eq hloc'
      _ = d.get? loc := h.entry loc
      _ = (routine.run d).2.get? loc := (hedits.get?_eq hloc).symm

/-- A routine that comes after one on other entries answers as if it came first; it leaves its own
entries as if it came first, and the others as it finds them. -/
theorem Routine.run_after (hp : routine.Makes (Call.OnFiles (folder.IsEntry names)) [])
    (ho : other.Makes (Call.OnFiles (folder.IsEntry others)) [])
    (hdisjoint : ∀ name, others name → ¬ names name) (hd : d.Linkless folder)
    (faults faults' : List (Option Fault)) {first : α × Disk} {second after : β × Disk}
    (hfirst : routine.run (d.facing faults) = first)
    (hsecond : other.run (d.facing faults') = second)
    (hafter : other.run (first.2.facing faults') = after) :
    after.1 = second.1 ∧ after.2.workingFolder = d.workingFolder ∧
      (∀ loc, d.EntryAt folder others loc → after.2.get? loc = second.2.get? loc) ∧
      (∀ loc, ¬ d.EntryAt folder others loc → after.2.get? loc = first.2.get? loc) ∧
      ∀ loc, ¬ d.EntryAt folder names loc → first.2.get? loc = d.get? loc := by
  have hedits : (d.facing faults).EditsIn folder names first.2 := by
    rw [← hfirst]
    exact Routine.run_editsIn hp ((d.same_facing faults).linkless hd) nofun
  have halike : Disk.Alike folder others (d.facing faults') (first.2.facing faults') :=
    hedits.alike hdisjoint ((d.same_facing faults).linkless hd) faults'
  have hedits' : (first.2.facing faults').EditsIn folder others after.2 := by
    rw [← hafter]
    exact Routine.run_editsIn ho halike.linkless' nofun
  have hedits'' : (d.facing faults').EditsIn folder others second.2 := by
    rw [← hsecond]
    exact Routine.run_editsIn ho halike.linkless nofun
  obtain ⟨hanswer, hleft⟩ := Routine.run_alike ho halike nofun
  rw [hafter, hsecond] at hanswer hleft
  have hentry : ∀ loc, (first.2.facing faults').EntryAt folder others loc ↔
      d.EntryAt folder others loc := fun loc => by
    rw [(first.2.same_facing faults').entryAt, hedits.entryAt, (d.same_facing faults).entryAt]
  refine ⟨hanswer, ?_, fun loc hloc => ?_, fun loc hloc => ?_, fun loc hloc => ?_⟩
  · exact hedits'.workingFolder.trans hedits.workingFolder
  · exact hleft.entry loc (hedits''.entryAt.mpr ((d.same_facing faults').entryAt.mpr hloc))
  · exact hedits'.get?_eq fun h => hloc ((hentry loc).mp h)
  · exact hedits.get?_eq fun h => hloc ((d.same_facing faults).entryAt.mp h)

/-- **Routines on different entries do not meet.** Each answers the same before the other and after
it, and either order leaves the same. -/
theorem Routine.run_comm (hp : routine.Makes (Call.OnFiles (folder.IsEntry names)) [])
    (ho : other.Makes (Call.OnFiles (folder.IsEntry others)) [])
    (hdisjoint : ∀ name, names name → ¬ others name) (hd : d.Linkless folder)
    (faults faults' : List (Option Fault)) {first first' : α × Disk} {second second' : β × Disk}
    (hfirst : routine.run (d.facing faults) = first)
    (hsecond : other.run (d.facing faults') = second)
    (hsecond' : other.run (first.2.facing faults') = second')
    (hfirst' : routine.run (second.2.facing faults) = first') :
    second'.1 = second.1 ∧ first'.1 = first.1 ∧ second'.2.Same first'.2 := by
  obtain ⟨hanswer, hplace, hin, hout, hrest⟩ := Routine.run_after hp ho
    (fun name ho hn => hdisjoint name hn ho) hd faults faults' hfirst hsecond hsecond'
  obtain ⟨hanswer', hplace', hin', hout', hrest'⟩ := Routine.run_after ho hp hdisjoint hd faults'
    faults hsecond hfirst hfirst'
  refine ⟨hanswer, hanswer', hplace'.trans hplace.symm, fun loc => ?_⟩
  -- what one routine is about, the other leaves; and what neither is about stays
  by_cases hfirstly : d.EntryAt folder names loc
  · rw [hin' loc hfirstly, hout loc (hfirstly.unless hdisjoint)]
  · rw [hout' loc hfirstly]
    by_cases hsecondly : d.EntryAt folder others loc
    · rw [hin loc hsecondly]
    · rw [hout loc hsecondly, hrest loc hfirstly, hrest' loc hsecondly]

end

/-! ### The entries of a file -/

/-- The names under which a file of the given name is stored. -/
def FileName.stored (name : String) : String → Prop :=
  fun other => other = name ∨ other = name ++ stagingSuffix

theorem Transfer.LiesIn.isEntry {t : Transfer} {name : String} (h : t.LiesIn folder name) :
    folder.IsEntry (FileName.stored name) t.finalPath ∧
      folder.IsEntry (FileName.stored name) t.stagingPath :=
  ⟨⟨name, Or.inl rfl, h.plain, h.final⟩,
    ⟨name ++ FileName.stagingSuffix, Or.inr rfl, FileName.plain_staged h.plain, h.staging⟩⟩

/-- Files that stand apart are stored under different names. -/
theorem Transfer.Apart.stored {t u : Transfer} {name other : String} (h : t.Apart u)
    (ht : t.LiesIn folder name) (hu : u.LiesIn folder other) :
    ∀ n, FileName.stored name n → ¬ FileName.stored other n := by
  obtain ⟨hfinals, hcrossed, hcrossed', hstagings⟩ := h
  rw [ht.final, hu.final] at hfinals
  rw [ht.final, hu.staging] at hcrossed
  rw [ht.staging, hu.final] at hcrossed'
  rw [ht.staging, hu.staging] at hstagings
  rintro n (hn | hn) (hm | hm)
  · exact hfinals (by rw [← hn, ← hm])
  · exact hcrossed (by rw [← hn, ← hm])
  · exact hcrossed' (by rw [← hn, ← hm])
  · exact hstagings (by rw [← hn, ← hm])

end FileReceiver
