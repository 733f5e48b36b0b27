/-
# What an operation can do

Opening a session makes the folder for received files and takes nothing away:
the disk only grows. With that, everything that an operation can do to a
receiver is one of a few moves (`Move`), from which its invariants follow
without a second look at the operations.

Key definitions: `Disk.Grows`, `Receiver.Move`.
Key theorems: `Disk.makeFolders_grows`, `Receiver.perform_moves`,
`Receiver.run_induction`.
-/
import FileReceiver.Proofs.Calls
import FileReceiver.Receiver

namespace FileReceiver

namespace Disk

variable {d d' d'' : Disk} {loc : Location}

/-- Folders have been made where nothing stood; everything else is as it was. -/
structure Grows (d d' : Disk) : Prop where
  workingFolder : d'.workingFolder = d.workingFolder
  entry : ∀ loc, d'.get? loc = d.get? loc ∨ d.get? loc = none ∧ d'.get? loc = some .folder

theorem Grows.refl (d : Disk) : d.Grows d := ⟨rfl, fun _ => Or.inl rfl⟩

theorem Grows.later (d : Disk) : d.Grows d.later := ⟨rfl, fun _ => Or.inl rfl⟩

theorem Grows.trans (h : d.Grows d') (h' : d'.Grows d'') : d.Grows d'' := by
  refine ⟨h'.workingFolder.trans h.workingFolder, fun loc => ?_⟩
  rcases h.entry loc with he | ⟨hnone, hfolder⟩
  · rcases h'.entry loc with he' | ⟨hnone', hfolder'⟩
    · exact Or.inl (he'.trans he)
    · exact Or.inr ⟨by rw [← he, hnone'], hfolder'⟩
  · rcases h'.entry loc with he' | ⟨hnone', -⟩
    · exact Or.inr ⟨hnone, by rw [he', hfolder]⟩
    · rw [hfolder] at hnone'
      cases hnone'

theorem Grows.get? (h : d.Grows d') {e : Entry} (he : d.get? loc = some e) :
    d'.get? loc = some e := by
  rcases h.entry loc with hsame | ⟨hnone, -⟩
  · rw [hsame, he]
  · rw [hnone] at he
    cases he

theorem Grows.keeps (h : d.Grows d') : d.Keeps d' := by
  refine ⟨h.workingFolder, fun loc hf => h.get? hf, fun loc target =>
    ⟨fun hl => ?_, fun hl => h.get? hl⟩⟩
  rcases h.entry loc with hsame | ⟨-, hfolder⟩
  · rw [← hsame, hl]
  · rw [hfolder] at hl
    cases hl

/-- A folder is made where nothing stands, or none is made. -/
theorem makeFolder_makes (d : Disk) (p : Path) :
    (d.makeFolder p).2 = d.later ∨ ∃ place, d.resolve .kept p = .ok place ∧
      d.get? place.location = none ∧ (d.makeFolder p).2 = d.later.put place.location .folder := by
  unfold makeFolder
  rcases d.attempt_cases _ with ⟨e, ha⟩ | ha
  · rw [ha]
    exact Or.inl rfl
  rw [ha]
  split
  · exact Or.inl rfl
  rename_i place hr
  split
  · exact Or.inl rfl
  · rename_i hlook
    exact Or.inr ⟨place, resolve_later.mp hr, lookAt_ok hlook, rfl⟩
  · exact Or.inl rfl

/-- Making a folder takes nothing away. -/
theorem makeFolder_grows (d : Disk) (p : Path) : d.Grows (d.makeFolder p).2 := by
  rcases d.makeFolder_makes p with hmade | ⟨place, -, hnone, hmade⟩
  · rw [hmade]
    exact .later d
  rw [hmade]
  refine (Grows.later d).trans ⟨rfl, fun loc => ?_⟩
  rw [get?_put]
  split
  · rename_i hroot
    rw [hroot]
    exact Or.inl rfl
  · split
    · rename_i hsame
      rw [← hsame]
      exact Or.inr ⟨hnone, rfl⟩
    · exact Or.inl rfl

theorem makeFoldersUpTo_grows (fuel : Nat) :
    ∀ (d : Disk) (p : Path), d.Grows (makeFoldersUpTo fuel d p).2 := by
  induction fuel with
  | zero => exact fun d _ => .refl d
  | succ fuel ih =>
    intro d p
    unfold makeFoldersUpTo
    split
    · exact .refl d
    have hmade := d.makeFolder_grows p
    split
    · rename_i made heq
      rw [heq] at hmade
      exact hmade
    · rename_i e made heq
      rw [heq] at hmade
      split
      · split
        · exact hmade
        · rename_i parent hparent
          have hbelow := ih made parent
          split
          · rename_i e' above heq'
            rw [heq'] at hbelow
            exact hmade.trans hbelow
          · rename_i above heq'
            rw [heq'] at hbelow
            have hagain := above.makeFolder_grows p
            split
            · rename_i last heq''
              rw [heq''] at hagain
              exact (hmade.trans hbelow).trans hagain
            · rename_i e'' last heq''
              rw [heq''] at hagain
              split <;> exact (hmade.trans hbelow).trans hagain
      · split <;> exact hmade

theorem makeFolders_grows (d : Disk) (p : Path) : d.Grows (d.makeFolders p).2 :=
  makeFoldersUpTo_grows _ d p

end Disk

namespace Receiver

theorem prepareFolder_grows (folder : Path) (d : Disk) : d.Grows (prepareFolder folder d).2 := by
  have hprobe : d.Grows (d.probe folder).2 := by
    unfold Disk.probe
    rcases d.draw_cases with ⟨fault, hd, -⟩ | hd
    all_goals
      rw [hd]
      exact .later d
  unfold prepareFolder
  split
  · rename_i probed heq
    rw [heq] at hprobe
    exact hprobe
  · rename_i probed heq
    rw [heq] at hprobe
    exact hprobe.trans (probed.makeFolders_grows folder)

/-- The files of a session that is opened with a manifest. -/
def admitted (r : Receiver) (manifest : Manifest) : List Transfer :=
  (Admission.ofManifest r.policy r.outputFolder manifest).accepted.reverse

/-- What an operation can do to a receiver. -/
inductive Move (r : Receiver) : Operation → Receiver → Prop
  /-- The operation is refused. -/
  | refused (o : Operation) : Move r o r
  | paired (pin : String) (remote : Device) (known : pin = r.pin) (given : pin ≠ "")
      (named : remote.missing? = none) : Move r (.pair pin remote) { r with peer := some remote }
  /-- There is no folder for the files. -/
  | unprepared (id : String) (manifest : Manifest) (d : Disk) (connected : r.peer.isSome)
      (grows : r.disk.Grows d) : Move r (.openSession id manifest) { r with disk := d }
  | opened (id : String) (manifest : Manifest) (d : Disk) (connected : r.peer.isSome)
      (grows : r.disk.Grows d) :
      Move r (.openSession id manifest)
        { r with session := some ⟨id, r.admitted manifest⟩, disk := d }
  | written (fileId : String) (bytes : ByteArray) (s : Session) (t : Transfer)
      (result : ChunkResult) (t' : Transfer) (d : Disk) (current : r.session = some s)
      (file : s.file? fileId = some t) (received : t.receive bytes r.disk = (result, t', d)) :
      Move r (.writeChunk (some s.id) fileId bytes)
        { r with session := some (s.update t'), disk := d }
  | cancelled (s : Session) (connected : r.peer.isSome) (current : r.session = some s) :
      Move r (.cancelSession s.id)
        { r with session := none, disk := (Session.removeStaging s.files r.disk).2 }

/-- **Every operation is a move.** -/
theorem perform_moves (r : Receiver) (o : Operation) : r.Move o (r.perform o).2 := by
  cases o with
  | pair pin remote =>
    change r.Move _ (r.pair pin remote).2
    unfold pair
    split
    · exact .refused _
    rename_i hgiven
    split
    · exact .refused _
    rename_i hnamed
    split
    · exact .refused _
    rename_i hpin
    exact .paired pin remote (Decidable.not_not.mp hpin) hgiven hnamed
  | openSession id manifest =>
    change r.Move _ (r.openForPeer id manifest).2
    unfold openForPeer openSession
    split
    · exact .refused _
    rename_i hpeer
    have hconnected := Option.isSome_iff_ne_none.mpr (by simpa using hpeer)
    split
    · exact .refused _
    have hgrows := prepareFolder_grows r.outputFolder r.disk
    split
    · rename_i e d heq
      rw [heq] at hgrows
      exact .unprepared id manifest d hconnected hgrows
    · rename_i d heq
      rw [heq] at hgrows
      exact .opened id manifest d hconnected hgrows
  | writeChunk id fileId bytes =>
    change r.Move _ (r.writeChunk id fileId bytes).2
    unfold writeChunk
    split
    · exact .refused _
    rename_i s hs
    split
    · exact .refused _
    rename_i hid
    split
    · exact .refused _
    rename_i t hfile
    rw [Decidable.not_not.mp hid]
    exact .written fileId bytes s t _ _ _ hs hfile rfl
  | cancelSession id =>
    change r.Move _ (r.cancelForPeer id).2
    unfold cancelForPeer cancelSession
    split
    · exact .refused _
    rename_i hpeer
    have hconnected := Option.isSome_iff_ne_none.mpr (by simpa using hpeer)
    split
    · exact .refused _
    rename_i s hs
    split
    · exact .refused _
    rename_i hid
    rw [← Decidable.not_not.mp hid]
    exact .cancelled s hconnected hs

/-- What every move keeps, every run keeps. -/
theorem run_induction {P : Receiver → Prop} (hstep : ∀ r o r', r.Move o r' → P r → P r')
    (operations : List Operation) {r : Receiver} (h : P r) : P (r.run operations) := by
  induction operations generalizing r with
  | nil => exact h
  | cons o rest ih => exact ih (hstep r o _ (perform_moves r o) h)

end Receiver
end FileReceiver
