/-
# Histories of a receiver

A receiver lives through events: a peer asks something of it, or its disk is
not what it was, because someone else has been at it or because other calls
are going to fail (`Event`). What every operation keeps, whatever the disk, is
so in every state that is reached (`after_induction`).

The paths of a session are settled when it is opened, and there is no event
that brings two of them together (`paths_stay_distinct`).

Key definitions: `Event`, `Receiver.after`, `Session.Distinct`.
Key theorems: `Receiver.after_induction`, `Receiver.tidy_after`,
`Receiver.paths_stay_distinct`.
-/
import FileReceiver.Proofs.Pairing
import FileReceiver.Proofs.Routines
import FileReceiver.Proofs.Sessions

namespace FileReceiver

/-- What can happen to a receiver. -/
inductive Event where
  | asked (o : Operation)
  | changed (d : Disk)

namespace Receiver

/-- The receiver after an event. -/
def meet (r : Receiver) : Event → Receiver
  | .asked o => (r.perform o).2
  | .changed d => r.on d

/-- The receiver after a history of events. -/
def after (r : Receiver) (events : List Event) : Receiver :=
  events.foldl meet r

@[simp]
theorem after_nil (r : Receiver) : r.after [] = r := rfl

@[simp]
theorem after_cons (r : Receiver) (e : Event) (events : List Event) :
    r.after (e :: events) = (r.meet e).after events := rfl

/-- A run is a history in which nobody else is at the disk. -/
theorem after_asked (r : Receiver) (operations : List Operation) :
    r.after (operations.map .asked) = r.run operations :=
  List.foldl_map

/-- What every operation and every change of the disk keeps, every history keeps. -/
theorem after_induction {P : Receiver → Prop} (hasked : ∀ r o r', r.Move o r' → P r → P r')
    (hchanged : ∀ (r : Receiver) d, P r → P (r.on d)) (events : List Event) {r : Receiver}
    (h : P r) : P (r.after events) := by
  induction events generalizing r with
  | nil => exact h
  | cons e rest ih =>
    cases e with
    | asked o => exact ih (hasked r o _ (perform_moves r o) h)
    | changed d => exact ih (hchanged r d h)

theorem tidy_of_idle {r : Receiver} (h : r.session = none) : r.Tidy := fun s hs => by
  rw [h] at hs
  cases hs

/-- In every state the session is tidy. -/
theorem tidy_after {r : Receiver} (hr : r.Tidy) (events : List Event) : (r.after events).Tidy :=
  after_induction (fun _ _ _ hmove => hmove.tidy) (fun _ _ h => h) events hr

theorem outputFolder_after (r : Receiver) (events : List Event) :
    (r.after events).outputFolder = r.outputFolder :=
  after_induction (P := fun r' => r'.outputFolder = r.outputFolder)
    (fun _ _ _ hmove h => hmove.outputFolder.trans h) (fun _ _ h => h) events rfl

end Receiver

/-! ### Paths of one session -/

/-- No file of a session is staged where one of its files will stand, and no two files of it share a
path. -/
structure Session.Distinct (s : Session) : Prop where
  crossed : ∀ t ∈ s.files, ∀ u ∈ s.files, ¬ t.finalPath.sameAs u.stagingPath
  finals : ∀ t ∈ s.files, ∀ u ∈ s.files, t.fileId ≠ u.fileId → ¬ t.finalPath.sameAs u.finalPath
  stagings : ∀ t ∈ s.files, ∀ u ∈ s.files, t.fileId ≠ u.fileId →
    ¬ t.stagingPath.sameAs u.stagingPath

/-- A file is not staged where it will stand. -/
theorem Transfer.LiesIn.crossed {t : Transfer} {folder : Path} {name : String}
    (h : t.LiesIn folder name) : t.finalPath.components ≠ t.stagingPath.components := by
  rw [h.final, h.staging]
  intro he
  have hname := (Path.sameAs_join folder h.plain (FileName.plain_staged h.plain)).mp
    (beq_iff_eq.mpr he)
  exact FileName.staged_ne name hname.symm

theorem Session.Tidy.distinct {s : Session} {folder : Path} (hs : s.Tidy folder) : s.Distinct := by
  have hother : ∀ t ∈ s.files, ∀ u ∈ s.files, t.fileId ≠ u.fileId → t.Apart u := by
    intro t ht u hu hne
    exact (hs.apart t ht u hu).resolve_left fun he => hne (by rw [he])
  refine ⟨fun t ht u hu hsame => ?_,
    fun t ht u hu hne hsame => (hother t ht u hu hne).finals (beq_iff_eq.mp hsame),
    fun t ht u hu hne hsame => (hother t ht u hu hne).stagings (beq_iff_eq.mp hsame)⟩
  rcases hs.apart t ht u hu with rfl | hapart
  · obtain ⟨name, hname⟩ := hs.lies t ht
    exact hname.crossed (beq_iff_eq.mp hsame)
  · exact hapart.finalStaging (beq_iff_eq.mp hsame)

/-- The ids that a manifest's verdicts accept are those of the files that are accepted. -/
theorem Admission.accepted_verdicts (policy : Policy) (folder : Path) (manifest : Manifest) :
    ((ofManifest policy folder manifest).verdicts.filter (·.2)).map (·.1) =
      (ofManifest policy folder manifest).accepted.map (·.fileId) := by
  refine ofManifest_induction
    (P := fun a => (a.verdicts.filter (·.2)).map (·.1) = a.accepted.map (·.fileId)) rfl
    fun a entry _ h => ?_
  by_cases haccepted : policy (Transfer.ofOffer entry.1 entry.2 folder a.claims) = true
  · rw [addFile_accepted haccepted]
    simpa [Transfer.ofOffer] using h
  · rw [addFile_refused haccepted]
    simpa using h

namespace Receiver

variable {r r' : Receiver} {id : String} {manifest : Manifest} {opened : Opened}

/-- What a session is opened with. -/
theorem openSession_ok (h : r.openSession id manifest = (.ok opened, r')) :
    opened.verdicts = (Admission.ofManifest r.policy r.outputFolder manifest).verdicts.reverse ∧
      r'.session = some ⟨id, r.admitted manifest⟩ ∧ r'.outputFolder = r.outputFolder := by
  unfold openSession at h
  split at h
  · cases h
  split at h
  · cases h
  · cases h
    exact ⟨rfl, rfl, rfl⟩

/-- **No two files of a session share a path.** A session that has been opened holds the files that
were accepted, and their paths are distinct. They stay so whatever happens, as those of every later
session are. -/
theorem paths_stay_distinct (h : r.openSession id manifest = (.ok opened, r')) :
    (∃ s, r'.session = some s ∧ s.id = id ∧
      s.files.map (·.fileId) = (opened.verdicts.filter (·.2)).map (·.1)) ∧
    ∀ (events : List Event) (s : Session), (r'.after events).session = some s → s.Distinct := by
  obtain ⟨hverdicts, hsession, hfolder⟩ := openSession_ok h
  refine ⟨⟨_, hsession, rfl, ?_⟩, fun events s hs => ?_⟩
  · rw [hverdicts, List.filter_reverse, List.map_reverse, Admission.accepted_verdicts, admitted,
      List.map_reverse]
  · have htidy : r'.Tidy := by
      intro s hs
      rw [hsession] at hs
      cases hs
      rw [hfolder]
      exact r.tidy_admitted id manifest
    exact (tidy_after htidy events s hs).distinct

theorem served_ok {α : Type} {served : Served α} {a : α} (h : served.1.toOption = some a) :
    served = (.ok a, served.2) := by
  rcases served with ⟨_ | b, r⟩
  · cases h
  · cases h
    rfl

/-- Two files of one name, and one that is named as the first is staged. -/
def clashingManifest : Manifest :=
  [("f", { name := some "x", size := 2 }), ("g", { name := some "x", size := 1 }),
    ("h", { name := some "x.part", size := 1 })]

theorem clashing_paths_distinct :
    ∃ opened r' s, unpairedExample.openSession "s" clashingManifest = (.ok opened, r') ∧
      (r'.after [.asked (.writeChunk (some "s") "f" ⟨#[7]⟩), .changed { entries := ∅ }]).session =
        some s ∧ s.files.map (·.finalPath.text) = ["out/x", "out/x_1", "out/x_2.part"] ∧
      s.Distinct := by
  have hordered : Admission.ordered clashingManifest = clashingManifest :=
    List.mergeSort_of_pairwise (by decide)
  have hopened : (unpairedExample.openSession "s" clashingManifest).1.toOption =
      some ⟨"s", [("f", true), ("g", true), ("h", true)], none⟩ := by
    unfold openSession Admission.ofManifest
    rw [hordered]
    decide +kernel
  have hopen := served_ok hopened
  have hpaths : ((unpairedExample.openSession "s" clashingManifest).2.after
      [.asked (.writeChunk (some "s") "f" ⟨#[7]⟩), .changed { entries := ∅ }]).session.map
        (·.files.map (·.finalPath.text)) = some ["out/x", "out/x_1", "out/x_2.part"] := by
    unfold openSession Admission.ofManifest
    rw [hordered]
    decide +kernel
  obtain ⟨s, hs, hfinals⟩ := Option.map_eq_some_iff.mp hpaths
  exact ⟨_, _, s, hopen, hs, hfinals, (paths_stay_distinct hopen).2 _ s hs⟩

/-- No link comes up on the disk of a receiver that started with an empty one. -/
theorem linkless_example (operations : List Operation) :
    (unpairedExample.after (operations.map .asked)).disk.Linkless unpairedExample.outputFolder := by
  have horderly : unpairedExample.Orderly := (tidy_of_idle rfl).orderly (Disk.linkFree_empty _ _)
  rw [after_asked]
  exact (orderly_run horderly operations).linkFree.linkless _

end Receiver
end FileReceiver
