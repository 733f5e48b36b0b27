/-
# Received files stay in their folder

What a peer calls a file may hold anything, and so may the id that a file
without a name is named after. Whatever it is, every path that taking a chunk
or cancelling a session is about is the folder for received files joined with
one plain name (`Path.Holds`). So, if no link stands in that folder, a call
can only change entries of it; what opening a session adds to that is the
folder itself, and folders that it stands in (`Disk.Raises`).

Key definitions: `Path.Holds`, `Disk.Raises`, `Disk.Contained`.
Key theorems: `Routine.run_raises`, `Receiver.holds_performing`,
`Receiver.perform_contained`, `Receiver.stays_in_folder`.
-/
import FileReceiver.Proofs.Histories
import FileReceiver.Proofs.Locality

namespace FileReceiver

open FileName (IsPlain)

variable {folder p : Path} {names : String → Prop} {d d' d'' : Disk} {Q : Path → Prop}

/-- A path is that of a folder joined with one plain name, and so has one step more. -/
def Path.Holds (folder p : Path) : Prop :=
  ∃ name, IsPlain name.toList ∧ p = folder.join name ∧
    p.components = folder.components ++ [.name name]

theorem Path.IsEntry.holds (h : folder.IsEntry names p) : folder.Holds p := by
  obtain ⟨name, -, hplain, rfl⟩ := h
  exact ⟨name, hplain, rfl, Path.components_join folder hplain⟩

/-! ### Folders that are made -/

namespace Disk

/-- Folders have been made where nothing stood, and only where paths lead of which `Q` holds. -/
structure Raises (d : Disk) (Q : Path → Prop) (d' : Disk) : Prop where
  grows : d.Grows d'
  raised : ∀ loc, d'.get? loc ≠ d.get? loc →
    ∃ p place, Q p ∧ d'.resolve .kept p = .ok place ∧ place.location = loc

theorem Raises.refl (d : Disk) : d.Raises Q d := ⟨.refl d, fun _ h => absurd rfl h⟩

theorem Raises.later (d : Disk) : d.Raises Q d.later := ⟨.later d, fun _ h => absurd rfl h⟩

theorem Raises.trans (h : d.Raises Q d') (h' : d'.Raises Q d'') : d.Raises Q d'' := by
  refine ⟨h.grows.trans h'.grows, fun loc hne => ?_⟩
  by_cases hsame : d''.get? loc = d'.get? loc
  · rw [hsame] at hne
    obtain ⟨p, place, hp, hr, hloc⟩ := h.raised loc hne
    exact ⟨p, place, hp, resolve_mono h'.grows.keeps hr, hloc⟩
  · exact h'.raised loc hsame

theorem makeFolder_raises (d : Disk) (hp : Q p) : d.Raises Q (d.makeFolder p).2 := by
  have hgrows := d.makeFolder_grows p
  refine ⟨hgrows, fun loc hne => ?_⟩
  rcases d.makeFolder_makes p with hmade | ⟨place, hr, -, hmade⟩
  · rw [hmade] at hne
    exact absurd rfl hne
  · refine ⟨p, place, hp, resolve_mono hgrows.keeps hr, ?_⟩
    rw [hmade, get?_put] at hne
    split at hne
    · rename_i hroot
      rw [hroot] at hne
      exact absurd rfl hne
    · split at hne
      · assumption
      · exact absurd rfl hne

theorem probe_later (d : Disk) (p : Path) : (d.probe p).2 = d.later := by
  unfold probe
  rw [draw_eq]
  cases d.faults.head?.join with
  | none => rfl
  | some fault => rfl

end Disk

theorem Call.make_raises {A : Type} {c : Call A} {files : List Location}
    (hc : c.OnFolders Q files) : d.Raises Q (c.make d).2 := by
  cases c with
  | probe p =>
    have hlater : (make d (.probe p)).2 = d.later := d.probe_later p
    rw [hlater]
    exact .later d
  | makeFolder p => exact d.makeFolder_raises hc
  | isFolder p => exact .refl d
  | openFresh | openEnd | write | setLength | read | remove | rename => exact hc.elim

/-- **A routine on folders makes folders**, and does nothing else. -/
theorem Routine.run_raises {α : Type} {routine : Routine α} {files : List Location}
    (hp : routine.Makes (Call.OnFolders Q) files) : d.Raises Q (routine.run d).2 := by
  induction routine generalizing d files with
  | done a => exact .refl d
  | call c next ih => exact (Call.make_raises hp.1).trans (ih (c.make d).1 (hp.2 _))

/-! ### The files of a session -/

/-- The paths of a tidy session are paths of entries of its folder. -/
theorem Session.Tidy.isEntry {s : Session} (hs : s.Tidy folder) {t : Transfer} (ht : t ∈ s.files) :
    folder.IsEntry (fun _ => True) t.finalPath ∧ folder.IsEntry (fun _ => True) t.stagingPath := by
  obtain ⟨name, hname⟩ := hs.lies t ht
  exact ⟨hname.isEntry.1.any, hname.isEntry.2.any⟩

/-- Entries of a folder have been edited; or the folder has been made, or one that it stands in, and
nothing else has changed. -/
def Disk.Contained (d : Disk) (folder : Path) (d' : Disk) : Prop :=
  d.EditsIn folder (fun _ => True) d' ∨ d.Raises folder.StandsIn d'

namespace Receiver

variable {r start : Receiver}

theorem isEntry_performing (hr : r.Tidy) (o : Operation) :
    (r.performing o).Makes (Call.OnFiles (r.outputFolder.IsEntry fun _ => True)) [] ∨
      (r.performing o).Makes (Call.OnFolders r.outputFolder.StandsIn) [] :=
  makes_performing (fun s hs _ ht => (hr s hs).isEntry ht) o

/-- **An operation keeps to its folder.** -/
theorem perform_contained (hr : r.Tidy) (hlinks : r.disk.Linkless r.outputFolder) (o : Operation) :
    r.disk.Contained r.outputFolder (r.perform o).2.disk := by
  have hrun : (r.perform o).2.disk = ((r.performing o).run r.disk).2 :=
    congrArg (·.2.disk) (r.perform_eq o r.disk)
  rw [hrun]
  rcases isEntry_performing hr o with hfiles | hfolders
  · exact Or.inl (Routine.run_editsIn hfiles hlinks nofun)
  · exact Or.inr (Routine.run_raises hfolders)

/-- **Containment.** In every state that a receiver reaches, each file of the current session has
paths that are the folder for received files joined with one plain name. What an operation does to a
disk it does by calls, and whatever is answered these are calls on such paths, and on files opened
by them, or else calls that make the folder and those it stands in. If no link stands in the folder,
it changes entries of the folder and nothing else, or makes the folder and those it stands in. -/
theorem stays_in_folder (hidle : start.session = none) (events : List Event) (o : Operation) :
    (∀ s, (start.after events).session = some s → ∀ t ∈ s.files,
      start.outputFolder.Holds t.finalPath ∧ start.outputFolder.Holds t.stagingPath) ∧
    (∀ d, ((start.after events).on d).perform o =
      match ((start.after events).performing o).run d with
      | ((answer, r), d) => (answer, r.on d)) ∧
    (((start.after events).performing o).Makes (Call.OnFiles start.outputFolder.Holds) [] ∨
      ((start.after events).performing o).Makes (Call.OnFolders start.outputFolder.StandsIn) []) ∧
    ((start.after events).disk.Linkless start.outputFolder →
      (start.after events).disk.Contained start.outputFolder
        ((start.after events).perform o).2.disk) := by
  have htidy := tidy_after (tidy_of_idle hidle) events
  rw [← outputFolder_after start events]
  generalize start.after events = r at htidy ⊢
  have hholds : ∀ s, r.session = some s → ∀ t ∈ s.files,
      r.outputFolder.Holds t.finalPath ∧ r.outputFolder.Holds t.stagingPath := fun s hs t ht =>
    ⟨((htidy s hs).isEntry ht).1.holds, ((htidy s hs).isEntry ht).2.holds⟩
  exact ⟨hholds, r.perform_eq o, makes_performing hholds o,
    fun hlinks => perform_contained htidy hlinks o⟩

/-- Names that lead elsewhere, and an id that does. -/
def hostileManifest : Manifest :=
  [("/../h", {}), ("f", { name := some "../../etc/passwd", size := 1 }),
    ("g", { name := some "C:\\x\\..\\..", size := 1 }),
    ("h", { name := some "/etc/pass\u0007\u0000wd", size := 1 })]

/-- A session is opened for them. -/
def hostileOpened : List Operation :=
  [.pair "123456" { id := "d", nickname := "n" }, .openSession "s" hostileManifest]

theorem hostile_names_stay :
    (unpairedExample.after (hostileOpened.map .asked)).session.map
        (·.files.map (·.finalPath.text)) =
      some ["out/h_unknown", "out/passwd", "out/unknown_file", "out/passwd_1"] ∧
    (unpairedExample.after (hostileOpened.map .asked)).disk.Contained unpairedExample.outputFolder
      ((unpairedExample.after (hostileOpened.map .asked)).perform
        (.writeChunk (some "s") "f" ⟨#[7]⟩)).2.disk := by
  have hordered : Admission.ordered hostileManifest = hostileManifest :=
    List.mergeSort_of_pairwise (by decide)
  have hpaths : (unpairedExample.after (hostileOpened.map .asked)).session.map
      (·.files.map (·.finalPath.text)) =
        some ["out/h_unknown", "out/passwd", "out/unknown_file", "out/passwd_1"] := by
    simp only [hostileOpened, List.map_cons, List.map_nil, after_cons, after_nil, meet, perform,
      openForPeer, openSession, Admission.ofManifest, hordered]
    decide +kernel
  have hidle : unpairedExample.session = none := rfl
  obtain ⟨-, -, -, hcontained⟩ := stays_in_folder hidle
    (hostileOpened.map .asked) (.writeChunk (some "s") "f" ⟨#[7]⟩)
  exact ⟨hpaths, hcontained (linkless_example hostileOpened)⟩

end Receiver
end FileReceiver
