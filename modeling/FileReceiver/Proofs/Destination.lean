/-
# What a chunk does to the destination

As long as a file is not complete, its chunks go to the staging file. The
entry at the final path is of interest to the last one only: an older file
there is taken away, and then the staging file is moved. Between the two
nothing stands at the path, and if the move fails, nothing will: the older file
is lost, and what has come of the new one is still at the staging path. That is
the one way in which a chunk that does not complete a file changes its
destination (`receive_entry`), and a chunk that does puts the whole file there
(`receive_whole`).

A link may stand at the final path, or the path may even lead through it; it is
taken away like a file. Without it the path may lead nowhere, but it does not
lead anywhere else (`folderAt_sheds`).

Key definitions: `Disk.Sheds`, `Transfer.Drops`, `Transfer.Loses`.
Key theorems: `Transfer.receive_entry`, `Transfer.receive_whole`,
`Receiver.destination_changes_iff`.
-/
import FileReceiver.Proofs.Staging

namespace FileReceiver

variable {d d' : Disk} {p folder : Path} {loc : Location} {name : String} {t t' : Transfer}
  {bytes content : ByteArray} {result : ChunkResult}

/-! ### Entries that are taken away -/

namespace Disk

/-- Entries have been taken away, and nothing else has changed. -/
structure Sheds (d d' : Disk) : Prop where
  workingFolder : d'.workingFolder = d.workingFolder
  entry : ∀ loc, d'.get? loc = d.get? loc ∨ d'.get? loc = none

theorem erase_sheds (d : Disk) (loc : Location) : d.Sheds (d.erase loc) := by
  refine ⟨rfl, fun place => ?_⟩
  rw [get?_erase]
  split
  · rename_i hroot
    rw [hroot]
    exact Or.inl rfl
  split
  · exact Or.inr rfl
  · exact Or.inl rfl

theorem Sheds.lookUp (h : d.Sheds d') {at_ : Location} {e : Entry}
    (hlook : d'.lookUp at_ name = .ok (some e)) : d.lookUp at_ name = .ok (some e) := by
  obtain ⟨hlen, hget⟩ := lookUp_ok hlook
  rw [lookUp_of_le hlen]
  rcases h.entry (at_ ++ [name]) with hsame | hnone
  · rw [← hsame, hget]
  · rw [hnone] at hget
    cases hget

theorem enterWith_sheds (h : d.Sheds d')
    {onLink onLink' : List Component → Location → Except SystemError Location}
    (hon : ∀ steps start loc, onLink' steps start = .ok loc → onLink steps start = .ok loc)
    (steps : List Component) (start loc : Location)
    (henter : d'.enterWith onLink' steps start = .ok loc) :
    d.enterWith onLink steps start = .ok loc := by
  fun_induction enterWith d' onLink' steps start with
  | case1 => exact henter
  | case2 rest start ih | case3 rest start ih | case4 rest start ih =>
    rw [enterWith]
    exact ih henter
  | case5 | case8 | case9 => cases henter
  | case6 name rest start target hlook =>
    rw [enterWith, h.lookUp hlook]
    exact hon _ _ _ henter
  | case7 name rest start hlook ih =>
    rw [enterWith, h.lookUp hlook]
    exact ih henter

/-- **No path leads astray.** Where entries have been taken away, a folder is found where it was, or
not at all. -/
theorem folderAt_sheds (h : d.Sheds d') (hfolder : d'.folderAt folder = .ok loc) :
    d.folderAt folder = .ok loc := by
  have henter : ∀ links steps start loc, d'.enter links steps start = .ok loc →
      d.enter links steps start = .ok loc := by
    intro links
    induction links with
    | zero => exact enterWith_sheds h fun _ _ _ hlink => by cases hlink
    | succ links ih => exact enterWith_sheds h ih
  unfold folderAt at hfolder ⊢
  rw [h.workingFolder] at hfolder
  exact henter linkLimit _ _ _ hfolder

/-- Edits elsewhere leave the entry at a path. -/
theorem entryAt?_edits {locs : List Location} (he : d.Edits locs d')
    (hloc : ∀ place, d.resolve .kept p = .ok place → place.location ∉ locs) :
    d'.entryAt? p = d.entryAt? p := by
  cases hr : d.resolve .kept p with
  | ok place =>
    rw [entryAt?_of_resolve hr, entryAt?_of_resolve (he.resolve.mpr hr), he.get?_eq (hloc place hr)]
  | error e =>
    have hnone : d'.entryAt? p = none := by
      unfold entryAt?
      cases hr' : d'.resolve .kept p with
      | ok place =>
        rw [he.resolve.mp hr'] at hr
        cases hr
      | error e => rfl
    rw [hnone, entryAt?, hr]

/-- Calls that change nothing leave the entry at every path. -/
theorem entryAt?_of_nil (he : d.Edits [] d') (p : Path) : d'.entryAt? p = d.entryAt? p :=
  entryAt?_edits he fun _ _ => List.not_mem_nil

theorem entryAt?_later (d : Disk) (p : Path) : d.later.entryAt? p = d.entryAt? p :=
  entryAt?_of_nil d.edits_later p

/-- What has been taken away was there, and is there no more. -/
theorem entryAt?_remove (hname : FileName.IsPlain name.toList)
    (h : d.remove (folder.join name) = (.ok (), d')) :
    d.entryAt? (folder.join name) ≠ none ∧ d'.entryAt? (folder.join name) = none := by
  rcases remove_takes h with ⟨⟨e, he⟩, -⟩ | ⟨place, e, -, hr, hlook, -, rfl⟩
  · cases he
  obtain ⟨loc, hloc, rfl⟩ := resolve_join_ok hname (Or.inl rfl) hr
  refine ⟨?_, ?_⟩
  · rw [entryAt?_of_resolve hr, lookAt_ok hlook]
    nofun
  unfold entryAt?
  split
  · rename_i place' hr'
    obtain ⟨found, hfound, rfl⟩ := resolve_join_ok hname (Or.inl rfl) hr'
    have hback := folderAt_sheds (d.later.erase_sheds _) hfound
    rw [folderAt_later, hloc] at hback
    cases hback
    exact (get?_erase _ _ _).trans (by simp [Place.location])
  · rfl

end Disk

/-! ### The last chunk -/

namespace Transfer

/-- What stands at the final path is taken away for a file, and then the staging file is not moved
there. -/
def Drops (t : Transfer) (d : Disk) : Prop :=
  ∃ t' compared cleared, t.verify d = (.ok t', compared) ∧
    compared.remove t.finalPath = (.ok (), cleared) ∧
    ∃ e, (cleared.rename t.stagingPath t.finalPath).1 = .error e

/-- A chunk is the last one of a file, and the destination is lost with it. -/
def Loses (t : Transfer) (bytes : ByteArray) (d : Disk) : Prop :=
  t.completed = false ∧ t.declaredSize.toNat ≤ t.received + bytes.size ∧
    ∃ appended, t.append bytes d = (.ok (), appended) ∧ (t.counting bytes.size).Drops appended

theorem verify_edits (t : Transfer) (d : Disk) : d.Edits [] (t.verify d).2 := by
  unfold verify
  split
  · exact .refl d
  · rcases hread : d.read t.stagingPath with ⟨_ | _, read⟩
    all_goals exact (Disk.read_cases hread).1

/-- Clearing a path takes away what stands there, or changes nothing. -/
theorem clear_takes {res : Except SystemError Unit} (h : clear p d = (res, d')) :
    res = .ok () ∧ d.remove p = (.ok (), d') ∨
      (∀ cleared, d.remove p ≠ (.ok (), cleared)) ∧ d' = d.later := by
  unfold clear at h
  rcases hremove : d.remove p with ⟨e | ⟨⟨⟩⟩, removed⟩
  · rw [hremove] at h
    refine Or.inr ⟨fun _ => nofun, ?_⟩
    rcases Disk.remove_takes hremove with ⟨-, rfl⟩ | ⟨_, _, hok, -⟩
    · dsimp only at h
      split at h
      all_goals
        cases h
        rfl
    · cases hok
  · rw [hremove] at h
    cases h
    exact Or.inl ⟨rfl, rfl⟩

/-- A staging file that is not moved leaves what stands at the final path, unless that has been
taken away before. -/
theorem promote_entry {e : SystemError} (hlies : t.LiesIn folder name)
    (h : t.promote d = (.error e, d')) :
    (∃ cleared, d.remove t.finalPath = (.ok (), cleared) ∧
        (cleared.rename t.stagingPath t.finalPath).1 = .error e ∧
        d.entryAt? t.finalPath ≠ none ∧ d'.entryAt? t.finalPath = none) ∨
      (∀ cleared, d.remove t.finalPath ≠ (.ok (), cleared)) ∧
        d'.entryAt? t.finalPath = d.entryAt? t.finalPath := by
  have hfailed : ∀ cleared : Disk, cleared.rename t.stagingPath t.finalPath = (.error e, d') →
      d' = cleared.later := by
    intro cleared hrename
    rcases Disk.rename_moves hrename with ⟨-, hlater⟩ | ⟨_, _, _, _, hok, -⟩
    · exact hlater
    · cases hok
  unfold promote at h
  rcases hclear : clear t.finalPath d with ⟨res, cleared⟩
  rw [hclear] at h
  rcases clear_takes hclear with ⟨rfl, hremove⟩ | ⟨hkept, rfl⟩
  · have hrename : cleared.rename t.stagingPath t.finalPath = (.error e, d') := h
    refine Or.inl ⟨cleared, hremove, by rw [hrename], ?_⟩
    rw [hfailed cleared h, Disk.entryAt?_later]
    rw [hlies.final] at hremove ⊢
    exact Disk.entryAt?_remove hlies.plain hremove
  · refine Or.inr ⟨hkept, ?_⟩
    cases res with
    | error e' =>
      cases h
      exact Disk.entryAt?_later d _
    | ok => rw [hfailed _ h, Disk.entryAt?_later, Disk.entryAt?_later]

/-- A file that is not completed leaves what stands at the final path, unless it drops it. -/
theorem finish_entry (hlies : t.LiesIn folder name) (h : t.finish d = (result, t', d'))
    (hopen : result.status ≠ .completed) :
    t.Drops d ∧ d.entryAt? t.finalPath ≠ none ∧ d'.entryAt? t.finalPath = none ∨
      ¬t.Drops d ∧ d'.entryAt? t.finalPath = d.entryAt? t.finalPath := by
  have hedit := t.verify_edits d
  unfold finish at h
  rcases hverify : t.verify d with ⟨cause | compared, read⟩
  · rw [hverify] at h hedit
    cases h
    refine Or.inr ⟨?_, Disk.entryAt?_of_nil hedit _⟩
    rintro ⟨_, _, _, hok, -⟩
    rw [hverify] at hok
    cases hok
  rw [hverify] at h hedit
  have hsame : read.entryAt? t.finalPath = d.entryAt? t.finalPath :=
    Disk.entryAt?_of_nil hedit _
  obtain ⟨v, rfl⟩ := verify_keeps hverify
  dsimp only at h
  rcases hpromote : promote { t with hashVerified := v } read with ⟨cause | ⟨⟨⟩⟩, promoted⟩
  · rw [hpromote] at h
    cases h
    have hlies' : LiesIn { t with hashVerified := v } folder name :=
      ⟨hlies.plain, hlies.final, hlies.staging⟩
    rcases promote_entry hlies' hpromote with
      ⟨cleared, hremove, hrename, hthere, hgone⟩ | ⟨hkept, hentry⟩
    · rw [hsame] at hthere
      exact Or.inl ⟨⟨_, read, cleared, hverify, hremove, _, hrename⟩, hthere, hgone⟩
    · refine Or.inr ⟨?_, hentry.trans hsame⟩
      rintro ⟨_, compared, cleared, hok, hremove, -⟩
      rw [hverify] at hok
      cases hok
      exact hkept cleared hremove
  · rw [hpromote] at h
    cases h
    exact absurd (status_completion _) hopen

/-- A file that drops what stands at its final path is not completed. -/
theorem Drops.failed (h : t.Drops d) : ∃ e, (t.finish d).1 = .failed e := by
  obtain ⟨t', compared, cleared, hverify, hremove, e, hrename⟩ := h
  obtain ⟨v, rfl⟩ := verify_keeps hverify
  refine ⟨e, ?_⟩
  rcases hr : cleared.rename t.stagingPath t.finalPath with ⟨res, renamed⟩
  rw [hr] at hrename
  cases hrename
  simp only [finish, hverify, promote, clear, hremove, hr]

/-- A chunk that loses the destination is answered by a failure. -/
theorem Loses.failed (h : t.Loses bytes d) : ∃ e, (t.receive bytes d).1 = .failed e := by
  obtain ⟨hbegun, hfull, appended, ha, hdrops⟩ := h
  obtain ⟨e, he⟩ := hdrops.failed
  refine ⟨e, ?_⟩
  rw [receive, if_neg (by simp [hbegun]), ha]
  dsimp only
  rw [if_neg (Nat.not_lt_of_le hfull)]
  exact he

variable (hlies : t.LiesIn folder name)
include hlies

/-- Chunks that are appended leave the destination alone, unless the staging path leads through a
link. -/
theorem append_entry (hlink : ∀ target, d.entryAt? t.stagingPath ≠ some (.link target))
    (bytes : ByteArray) :
    (t.append bytes d).2.entryAt? t.finalPath = d.entryAt? t.finalPath := by
  have hpart := FileName.plain_staged hlies.plain
  obtain ⟨loc, hloc⟩ := d.exists_isAt folder
  have haims : d.Aims t.stagingPath (loc ++ [name ++ FileName.stagingSuffix]) := by
    rw [hlies.staging] at hlink ⊢
    exact Disk.aims_join hpart hloc hlink
  obtain ⟨hedits, -⟩ := append_edits haims bytes
  refine Disk.entryAt?_edits hedits fun place hr hmem => ?_
  rw [hlies.final] at hr
  obtain ⟨found, hfound, rfl⟩ := Disk.resolve_join_ok hlies.plain (Or.inl rfl) hr
  rw [hloc found hfound] at hmem
  exact FileName.staged_ne name (by simpa [Place.location, eq_comm] using hmem)

/-- **One way to lose the destination.** A chunk that does not complete its file leaves what stands
at the final path; or it is the last one, what stands there has been taken away, and nothing comes
in its place. -/
theorem receive_entry (hlink : ∀ target, d.entryAt? t.stagingPath ≠ some (.link target))
    (h : t.receive bytes d = (result, t', d')) (hopen : result.status ≠ .completed) :
    t.Loses bytes d ∧ d.entryAt? t.finalPath ≠ none ∧ d'.entryAt? t.finalPath = none ∨
      ¬t.Loses bytes d ∧ d'.entryAt? t.finalPath = d.entryAt? t.finalPath := by
  have happend := append_entry hlies hlink bytes
  rcases receive_cases h with ⟨-, rfl, -⟩ | ⟨hbegun, ⟨e, ha, -⟩ | ⟨appended, ha, h⟩⟩
  · exact absurd rfl hopen
  · rw [ha] at happend
    refine Or.inr ⟨?_, happend⟩
    rintro ⟨-, -, _, hok, -⟩
    rw [ha] at hok
    cases hok
  rw [ha] at happend
  rcases h with ⟨hmore, rfl, -, rfl⟩ | ⟨hfull, h⟩
  · exact Or.inr ⟨fun hloses => absurd hmore (Nat.not_lt_of_le hloses.2.1), happend⟩
  have hlies' : (t.counting bytes.size).LiesIn folder name :=
    ⟨hlies.plain, hlies.final, hlies.staging⟩
  have hdrops : t.Loses bytes d ↔ (t.counting bytes.size).Drops appended := by
    constructor
    · rintro ⟨-, -, _, hok, hdrops⟩
      rw [ha] at hok
      cases hok
      exact hdrops
    · exact fun hdrops => ⟨hbegun, hfull, appended, ha, hdrops⟩
  rw [hdrops, ← happend]
  exact finish_entry hlies' h hopen

/-- **The last chunk puts the whole file there**: what had been counted, and then the chunk. -/
theorem receive_whole (hstaged : t.Staged d content) (hd : d.Linkless folder)
    (hdevice : d.entryAt? t.stagingPath ≠ some .fullDevice) (hbegun : t.completed = false)
    (h : t.receive bytes d = (result, t', d')) (hdone : result.status = .completed) :
    d'.contentAt? t.finalPath = some (content ++ bytes) := by
  obtain ⟨loc, hloc⟩ := d.exists_isAt folder
  have hp := hlies.placedIn hd hloc
  rcases receive_cases h with ⟨hold, -⟩ | ⟨-, ⟨e, -, rfl, -⟩ | ⟨appended, ha, h⟩⟩
  · rw [hbegun] at hold
    cases hold
  · cases hdone
  rcases h with ⟨-, rfl, -⟩ | ⟨-, h⟩
  · cases hdone
  obtain ⟨place, hr⟩ := append_resolves (d := d) hlies (by rw [ha])
  have hat := hp.aimsStaging.location hr
  -- Appending does not look at what is said about the hash.
  have hcounts : Counts { t with hashVerified := none } d (loc ++ [name ++ FileName.stagingSuffix])
      content := by
    refine ⟨hbegun, fun _ => rfl, hstaged.received, ?_⟩
    rcases hstaged.staged with rfl | hthere
    · rw [Disk.entryAt?_of_resolve hr, hat] at hdevice
      exact Or.inl ⟨rfl, hdevice⟩
    · obtain ⟨place', mode, hr', hf⟩ := Disk.exists_of_contentAt? hthere
      rw [hp.aimsStaging.location hr'] at hf
      exact Or.inr ⟨mode, hf⟩
  obtain ⟨mode, hfile⟩ : ∃ mode, appended.get? (loc ++ [name ++ FileName.stagingSuffix]) =
      some (.file mode (content ++ bytes)) := by
    rcases append_counts hcounts hp.aimsStaging ha with ⟨-, hfile⟩ | ⟨⟨e, he⟩, -⟩
    · exact hfile
    · cases he
  obtain ⟨hedits, -⟩ := append_edits hp.aimsStaging bytes
  rw [ha] at hedits
  have hp' := (hp.edits hedits).counting bytes.size
  obtain ⟨v, ⟨⟨e, rfl⟩, -⟩ | ⟨-, -, -, -, hthere, -, hreach, -⟩⟩ := finish_cases hp' h
  · cases hdone
  have hentry : d'.entryAt? t.finalPath = some (.file mode (content ++ bytes)) :=
    hreach.entryAt?.trans (hthere.trans hfile)
  rw [Disk.contentAt?, hentry]

end Transfer

/-! ### In every state -/

namespace Receiver

/-- **What becomes of the destination.** In every state that a receiver reaches, of every file of
the current session and for every chunk, whatever stands at the two paths and whatever calls fail: a
chunk that does not complete the file changes the entry at its final path if and only if it is the
last one, what stands at the path has been taken away, and the staging file cannot be moved there;
then the chunk is answered by a failure, and nothing stands at the path. (What a staging path leads
to that is a link itself is another matter.) A chunk that completes the file leaves there the chunks
that have come in this session, the last one included, and a chunk of a complete file changes
nothing. -/
theorem destination_changes_iff {start : Receiver} (hidle : start.session = none)
    (events : List Event) {fileId : String}
    (hfile : (start.after events).file? fileId = some t)
    (hreceive : t.receive bytes (start.after events).disk = (result, t', d')) :
    ((∀ target, (start.after events).disk.entryAt? t.stagingPath ≠ some (.link target)) →
      result.status ≠ .completed →
        (d'.entryAt? t.finalPath ≠ (start.after events).disk.entryAt? t.finalPath ↔
          t.Loses bytes (start.after events).disk) ∧
        (t.Loses bytes (start.after events).disk → d'.entryAt? t.finalPath = none)) ∧
    (t.Loses bytes (start.after events).disk → result.status = .failed) ∧
    (t.completed = true → d' = (start.after events).disk) ∧
    (t.completed = false → result.status = .completed → start.Undisturbed events →
      (start.after events).disk.Linkless start.outputFolder →
      (start.after events).disk.entryAt? t.stagingPath ≠ some .fullDevice →
        d'.contentAt? t.finalPath = some (joined (arrivals fileId start [] events ++ [bytes]))) := by
  have htidy := tidy_after (tidy_of_idle hidle) events
  obtain ⟨s, hs, hmem⟩ := Option.bind_eq_some_iff.mp hfile
  obtain ⟨name, hlies⟩ := (htidy s hs).lies t (Session.mem_of_file? hmem)
  refine ⟨fun hlink hopen => ?_, fun hloses => ?_, fun hdone => ?_,
    fun hbegun hdone hundisturbed hlinks hdevice => ?_⟩
  · rcases Transfer.receive_entry hlies hlink hreceive hopen with
      ⟨hloses, hthere, hgone⟩ | ⟨hkeeps, hsame⟩
    · exact ⟨⟨fun _ => hloses, fun _ => by rw [hgone]; exact hthere.symm⟩, fun _ => hgone⟩
    · exact ⟨⟨fun hne => absurd hsame hne, fun hloses => absurd hloses hkeeps⟩,
        fun hloses => absurd hloses hkeeps⟩
  · obtain ⟨e, he⟩ := hloses.failed
    rw [hreceive] at he
    rw [show result = .failed e from he]
    rfl
  · rw [Transfer.receive_completed hdone] at hreceive
    cases hreceive
    rfl
  · have hnone : start.Staging fileId [] := fun t ht => by
      rw [file?, hidle, Option.bind_none] at ht
      cases ht
    have hstaged := hnone.after (tidy_of_idle hidle) hundisturbed t hfile hbegun
    rw [outputFolder_after] at hlies
    rw [joined_concat]
    exact Transfer.receive_whole hlies hstaged hlinks hdevice hbegun hreceive hdone

/-- An older file of the name, and a move that is going to fail. -/
def unmovableDisk : Disk :=
  ((Disk.mk ∅ [] [none, none, none, none, some ⟨.noSpace, 0⟩]).put ["out"] .folder).put
    ["out", "x"] (.file 0o644 ⟨#[9]⟩)

/-- A session for one file of one byte. -/
def oneByteEvents (name : String) (d : Disk) : List Event :=
  [.asked (.pair "123456" { id := "d", nickname := "n" }), .changed d,
    .asked (.openSession "s" [("f", { name := some name, size := 1 })])]

/-- The record of that file. -/
def oneByteFile (name : String) : Transfer :=
  .ofOffer "f" { name := some name, size := 1 } ⟨"out"⟩ []

theorem older_file_dropped :
    (unpairedExample.after (oneByteEvents "x" unmovableDisk)).file? "f" = some (oneByteFile "x") ∧
      (unpairedExample.after (oneByteEvents "x" unmovableDisk)).disk.contentAt? ⟨"out/x"⟩ =
        some ⟨#[9]⟩ ∧
      (oneByteFile "x").Loses ⟨#[7]⟩
        (unpairedExample.after (oneByteEvents "x" unmovableDisk)).disk := by
  have hidle : unpairedExample.session = none := rfl
  have hfile : (unpairedExample.after (oneByteEvents "x" unmovableDisk)).file? "f" =
      some (oneByteFile "x") := by decide +kernel
  have holder : (unpairedExample.after (oneByteEvents "x" unmovableDisk)).disk.contentAt?
      ⟨"out/x"⟩ = some ⟨#[9]⟩ := by decide +kernel
  have hpath : (oneByteFile "x").finalPath = ⟨"out/x"⟩ := by decide +kernel
  have hstaging : ((unpairedExample.after (oneByteEvents "x" unmovableDisk)).disk.entryAt?
      (oneByteFile "x").stagingPath).isNone = true := by decide +kernel
  rcases hreceive : (oneByteFile "x").receive ⟨#[7]⟩
      (unpairedExample.after (oneByteEvents "x" unmovableDisk)).disk with ⟨result, t', d'⟩
  have hanswer : ((oneByteFile "x").receive ⟨#[7]⟩
      (unpairedExample.after (oneByteEvents "x" unmovableDisk)).disk).1.status = .failed := by
    decide +kernel
  have hgone : ((oneByteFile "x").receive ⟨#[7]⟩
      (unpairedExample.after (oneByteEvents "x" unmovableDisk)).disk).2.2.contentAt? ⟨"out/x"⟩ =
        none := by decide +kernel
  rw [hreceive] at hanswer hgone
  refine ⟨hfile, holder, ?_⟩
  obtain ⟨hentry, -⟩ := destination_changes_iff hidle _ hfile hreceive
  refine (hentry (fun target hlink => ?_) (by simp [hanswer])).1.mp fun hsame => ?_
  · rw [hlink] at hstaging
    cases hstaging
  · rw [hpath] at hsame
    rw [Disk.contentAt?, hsame, ← Disk.contentAt?, holder] at hgone
    cases hgone

/-- The folder for received files is a link to where it stands itself, so that a file of its name
has the link for its destination. -/
def selfLinkedDisk : Disk := (Disk.mk ∅ [] []).put ["out"] (.link ".")

theorem destination_lost :
    (unpairedExample.after (oneByteEvents "out" selfLinkedDisk)).file? "f" =
        some (oneByteFile "out") ∧
      ((oneByteFile "out").receive ⟨#[120]⟩
        (unpairedExample.after (oneByteEvents "out" selfLinkedDisk)).disk).1 = .failed .noEntry ∧
      ((unpairedExample.after (oneByteEvents "out" selfLinkedDisk)).disk.entryAt?
        (oneByteFile "out").finalPath).isSome = true ∧
      (((oneByteFile "out").receive ⟨#[120]⟩
        (unpairedExample.after (oneByteEvents "out" selfLinkedDisk)).disk).2.2.entryAt?
          (oneByteFile "out").finalPath).isNone = true := by
  decide +kernel

end Receiver
end FileReceiver
