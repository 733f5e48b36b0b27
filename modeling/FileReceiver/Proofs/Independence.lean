/-
# The files of a session are independent

A chunk of one file and a chunk of another are about different entries of the
folder for received files. So it does not matter which comes first: both
answers, both records and everything on the disk come out the same
(`send_comm`). What fails is part of what is sent (`Sending`), since the calls
for one file hang on nothing that happens to another. By moving chunks past
each other, however the chunks of all files are mixed, the outcome is that of
sending the files one after the other (`files_independent`).

Key definitions: `Sending`, `Receiver.send`, `Receiver.sendAll`,
`Receiver.Matches`, `SameOutcome`.
Key theorems: `Receiver.send_comm`, `Receiver.sendAll_congr`,
`Receiver.sendAll_interleaved`, `Receiver.files_independent`.
-/
import FileReceiver.Proofs.Histories
import FileReceiver.Proofs.Locality

namespace FileReceiver

/-- A chunk of a file that is sent, and the faults that its calls meet with. -/
structure Sending where
  fileId : String
  bytes : ByteArray
  faults : List (Option Fault) := []

namespace Receiver

/-- Takes a chunk of a file of the current session. -/
def send (r : Receiver) (x : Sending) : Served ChunkReport :=
  (r.on (r.disk.facing x.faults)).writeChunk r.sessionId? x.fileId x.bytes

/-- Takes chunks one after the other: the answers, each with the id of its file. -/
def sendAll (r : Receiver) : List Sending → List (String × Except Refusal ChunkReport) × Receiver
  | [] => ([], r)
  | x :: rest =>
    let (answer, r) := r.send x
    let (answers, r) := r.sendAll rest
    ((x.fileId, answer) :: answers, r)

/-- Two receivers are the same, and their disks hold the same. -/
structure Matches (r r' : Receiver) : Prop where
  rest : r' = r.on r'.disk
  disk : r.disk.Same r'.disk

/-- The session is tidy, and no link stands in the folder. -/
structure Calm (r : Receiver) : Prop where
  tidy : r.Tidy
  linkless : r.disk.Linkless r.outputFolder

variable {r r' r'' : Receiver} {x y : Sending} {s : Session} {t u : Transfer}

theorem Matches.refl (r : Receiver) : r.Matches r := ⟨rfl, .refl _⟩

theorem Matches.trans (h : r.Matches r') (h' : r'.Matches r'') : r.Matches r'' := by
  refine ⟨?_, h.disk.trans h'.disk⟩
  rw [h'.rest, h.rest]
  rfl

/-! ### One chunk -/

theorem exists_file {fileId : String} (h : (r.file? fileId).isSome) :
    ∃ s t, r.session = some s ∧ s.file? fileId = some t := by
  obtain ⟨t, ht⟩ := Option.isSome_iff_exists.mp h
  obtain ⟨s, hs, hfile⟩ := Option.bind_eq_some_iff.mp ht
  exact ⟨s, t, hs, hfile⟩

/-- What is sent is taken by the routine of its file. -/
theorem send_eq (hs : r.session = some s) (hfile : s.file? x.fileId = some t)
    {out : (ChunkResult × Transfer) × Disk}
    (hrun : (t.receiving x.bytes).run (r.disk.facing x.faults) = out) :
    r.send x = (.ok (out.1.2.report s.id out.1.1),
        { r with session := some (s.update out.1.2), disk := out.2 }) ∧
      out.1.2.fileId = t.fileId ∧ out.1.2.finalPath = t.finalPath ∧
      out.1.2.stagingPath = t.stagingPath := by
  rw [Transfer.run_receiving] at hrun
  subst hrun
  refine ⟨?_, Transfer.receive_paths rfl⟩
  simp [send, writeChunk, sessionId?, hs, hfile, on]

/-- The routine by which a file takes a chunk is about the entries of the file. -/
theorem makes_stored {folder : Path} {name : String} (h : t.LiesIn folder name)
    (bytes : ByteArray) :
    (t.receiving bytes).Makes (Call.OnFiles (folder.IsEntry (FileName.stored name))) [] :=
  t.makes_receiving bytes h.isEntry.1 h.isEntry.2

theorem send_calm (hr : r.Calm) (hx : (r.file? x.fileId).isSome) :
    (r.send x).2.Calm ∧ (r.send x).2.outputFolder = r.outputFolder ∧
      ∀ fileId, (r.file? fileId).isSome → ((r.send x).2.file? fileId).isSome := by
  obtain ⟨s, t, hs, hfile⟩ := exists_file hx
  obtain ⟨name, hname⟩ := (hr.tidy s hs).lies t (Session.mem_of_file? hfile)
  rcases hrun : (t.receiving x.bytes).run (r.disk.facing x.faults) with ⟨⟨result, t'⟩, d⟩
  obtain ⟨hsend, hid, hfinal, hstaging⟩ := send_eq hs hfile hrun
  have hlinks := (r.disk.same_facing x.faults).linkless hr.linkless
  have hedits := Routine.run_editsIn (makes_stored hname x.bytes) hlinks nofun
  rw [hrun] at hedits
  rw [hsend]
  refine ⟨⟨?_, hedits.linkless hlinks⟩, rfl, fun fileId hsome => ?_⟩
  · intro s' hs'
    cases hs'
    exact (hr.tidy s hs).update (Session.mem_of_file? hfile) hid hfinal hstaging
  · obtain ⟨s', old, hs', hold⟩ := exists_file hsome
    rw [hs] at hs'
    cases hs'
    change ((s.update t').file? fileId).isSome
    rw [Session.file?_update, hold]
    rfl

/-- A chunk is answered the same by receivers that match, and they match after it. -/
theorem send_congr (hr : r.Calm) (h : r.Matches r') (hx : (r.file? x.fileId).isSome) :
    (r'.send x).1 = (r.send x).1 ∧ (r.send x).2.Matches (r'.send x).2 := by
  obtain ⟨s, t, hs, hfile⟩ := exists_file hx
  obtain ⟨name, hname⟩ := (hr.tidy s hs).lies t (Session.mem_of_file? hfile)
  have hs' : r'.session = some s := by
    rw [h.rest]
    exact hs
  have hlinks := (r.disk.same_facing x.faults).linkless hr.linkless
  obtain ⟨hanswer, hsame⟩ := Routine.run_same (makes_stored hname x.bytes) hlinks
    (h.disk.facing x.faults x.faults) rfl
  obtain ⟨hsend, -⟩ := send_eq hs hfile rfl
  obtain ⟨hsend', -⟩ := send_eq hs' hfile rfl
  rw [hsend, hsend', hanswer]
  refine ⟨rfl, ?_, hsame⟩
  rw [h.rest]
  rfl

/-- **Two chunks of different files.** Either order gives the same answers and the same receiver. -/
theorem send_comm (hr : r.Calm) (hx : (r.file? x.fileId).isSome) (hy : (r.file? y.fileId).isSome)
    (hne : x.fileId ≠ y.fileId) :
    ((r.send x).2.send y).1 = (r.send y).1 ∧ ((r.send y).2.send x).1 = (r.send x).1 ∧
      ((r.send x).2.send y).2.Matches ((r.send y).2.send x).2 := by
  obtain ⟨s, t, hs, ht⟩ := exists_file hx
  obtain ⟨s', u, hs', hu⟩ := exists_file hy
  rw [hs] at hs'
  cases hs'
  have htid := Session.fileId_of_file? ht
  have huid := Session.fileId_of_file? hu
  have hmemt := Session.mem_of_file? ht
  have hmemu := Session.mem_of_file? hu
  obtain ⟨name, hname⟩ := (hr.tidy s hs).lies t hmemt
  obtain ⟨other, hother⟩ := (hr.tidy s hs).lies u hmemu
  have hapart : t.Apart u := ((hr.tidy s hs).apart t hmemt u hmemu).resolve_left fun he =>
    hne (by rw [← htid, ← huid, he])
  rcases hfirst : (t.receiving x.bytes).run (r.disk.facing x.faults) with ⟨⟨result, t'⟩, d⟩
  rcases hsecond : (u.receiving y.bytes).run (r.disk.facing y.faults) with ⟨⟨result', u'⟩, d'⟩
  obtain ⟨hsend, hid, -⟩ := send_eq hs ht hfirst
  obtain ⟨hsend', hid', -⟩ := send_eq hs hu hsecond
  obtain ⟨hanswer', hanswer, hsame⟩ := Routine.run_comm (makes_stored hname x.bytes)
    (makes_stored hother y.bytes) (hapart.stored hname hother) hr.linkless x.faults y.faults
    hfirst hsecond rfl rfl
  have hu' : (s.update t').file? y.fileId = some u := by
    rw [Session.file?_update_ne s (by rw [hid, htid]; exact hne.symm), hu]
  have ht' : (s.update u').file? x.fileId = some t := by
    rw [Session.file?_update_ne s (by rw [hid', huid]; exact hne), ht]
  rw [hsend, hsend']
  obtain ⟨hlast, -⟩ := send_eq (r := { r with session := some (s.update t'), disk := d })
    (x := y) rfl hu' rfl
  obtain ⟨hlast', -⟩ := send_eq (r := { r with session := some (s.update u'), disk := d' })
    (x := x) rfl ht' rfl
  rw [hlast, hlast']
  dsimp only at hanswer hanswer' hsame ⊢
  rw [hanswer, hanswer']
  refine ⟨rfl, rfl, ?_, hsame⟩
  have hids : t'.fileId ≠ u'.fileId := by
    rw [hid, htid, hid', huid]
    exact hne
  rw [Session.update_comm s hids]
  rfl

/-! ### Many chunks -/

/-- All chunks are of files that the session has. -/
def Accepts (r : Receiver) (xs : List Sending) : Prop :=
  ∀ x ∈ xs, (r.file? x.fileId).isSome

/-- Two outcomes have the same answers about each file, in their order, and receivers that match. -/
structure SameOutcome (o o' : List (String × Except Refusal ChunkReport) × Receiver) : Prop where
  answers : ∀ fileId, o'.1.filter (·.1 == fileId) = o.1.filter (·.1 == fileId)
  receivers : o.2.Matches o'.2

theorem SameOutcome.trans {o o' o'' : List (String × Except Refusal ChunkReport) × Receiver}
    (h : SameOutcome o o') (h' : SameOutcome o' o'') : SameOutcome o o'' :=
  ⟨fun fileId => (h'.answers fileId).trans (h.answers fileId), h.receivers.trans h'.receivers⟩

theorem sendAll_cons (r : Receiver) (x : Sending) (xs : List Sending) :
    r.sendAll (x :: xs) = ((x.fileId, (r.send x).1) :: ((r.send x).2.sendAll xs).1,
      ((r.send x).2.sendAll xs).2) := rfl

variable {xs ys us vs : List Sending}

theorem Accepts.of_cons (h : r.Accepts (x :: xs)) (hr : r.Calm) :
    (r.file? x.fileId).isSome ∧ r.Accepts xs ∧ (r.send x).2.Accepts xs := by
  have hx := h x List.mem_cons_self
  have hxs : r.Accepts xs := fun y hy => h y (List.mem_cons_of_mem x hy)
  exact ⟨hx, hxs, fun y hy => (send_calm hr hx).2.2 _ (hxs y hy)⟩

/-- Chunks are answered the same by receivers that match, and they match after them. -/
theorem sendAll_congr (hr : r.Calm) (h : r.Matches r') (hxs : r.Accepts xs) :
    (r'.sendAll xs).1 = (r.sendAll xs).1 ∧ (r.sendAll xs).2.Matches (r'.sendAll xs).2 := by
  induction xs generalizing r r' with
  | nil => exact ⟨rfl, h⟩
  | cons x xs ih =>
    obtain ⟨hx, -, hrest⟩ := hxs.of_cons hr
    obtain ⟨hanswer, hnext⟩ := send_congr hr h hx
    obtain ⟨hanswers, hlast⟩ := ih (send_calm hr hx).1 hnext hrest
    rw [sendAll_cons, sendAll_cons, hanswer, hanswers]
    exact ⟨rfl, hlast⟩

/-- What follows a chunk can be replaced by what has the same outcome. -/
theorem SameOutcome.cons (h : SameOutcome ((r.send x).2.sendAll xs) ((r.send x).2.sendAll ys)) :
    SameOutcome (r.sendAll (x :: xs)) (r.sendAll (x :: ys)) := by
  refine ⟨fun fileId => ?_, h.receivers⟩
  rw [sendAll_cons, sendAll_cons, List.filter_cons, List.filter_cons, h.answers]

/-- Two chunks of different files can change places. -/
theorem sendAll_swap (hr : r.Calm) (hxs : r.Accepts (x :: y :: xs)) (hne : x.fileId ≠ y.fileId) :
    SameOutcome (r.sendAll (x :: y :: xs)) (r.sendAll (y :: x :: xs)) := by
  obtain ⟨hx, hrest, hrest'⟩ := hxs.of_cons hr
  obtain ⟨hy, -, -⟩ := hrest.of_cons hr
  have hcalm := (send_calm hr hx).1
  obtain ⟨hy', -, hlast⟩ := hrest'.of_cons hcalm
  obtain ⟨hanswer, hanswer', hmatch⟩ := send_comm hr hx hy hne
  obtain ⟨hanswers, hlast⟩ := sendAll_congr (send_calm hcalm hy').1 hmatch hlast
  simp only [sendAll_cons]
  refine ⟨fun fileId => ?_, hlast⟩
  rw [hanswers, hanswer, hanswer']
  -- only one of the two is about the file, so that their order does not show
  by_cases hxid : x.fileId = fileId
  · have hyid : ¬ y.fileId = fileId := fun h => hne (hxid.trans h.symm)
    simp [hxid, hyid]
  · simp [List.filter_cons, hxid]

/-- A chunk can be moved to the front of those of other files. -/
theorem sendAll_front (hr : r.Calm) (hacc : r.Accepts (x :: (us ++ vs)))
    (hne : ∀ u ∈ us, x.fileId ≠ u.fileId) :
    SameOutcome (r.sendAll (x :: (us ++ vs))) (r.sendAll (us ++ x :: vs)) := by
  induction us generalizing r with
  | nil => exact ⟨fun _ => rfl, .refl _⟩
  | cons u us ih =>
    have hswap := sendAll_swap hr hacc (hne u List.mem_cons_self)
    obtain ⟨hx, hrest, -⟩ := hacc.of_cons hr
    obtain ⟨hu, hrest, -⟩ := hrest.of_cons hr
    obtain ⟨hcalm, -, hkeeps⟩ := send_calm hr hu
    have hmoved : SameOutcome ((r.send u).2.sendAll (x :: (us ++ vs)))
        ((r.send u).2.sendAll (us ++ x :: vs)) := by
      apply ih hcalm
      · intro y hy
        rcases List.mem_cons.mp hy with rfl | hy
        · exact hkeeps _ hx
        · exact hkeeps _ (hrest y hy)
      · exact fun y hy => hne y (List.mem_cons_of_mem u hy)
    exact hswap.trans hmoved.cons

/-- **Only the order of each file's chunks counts.** -/
theorem sendAll_interleaved (hr : r.Calm) (hxs : r.Accepts xs)
    (h : ∀ fileId, ys.filter (·.fileId == fileId) = xs.filter (·.fileId == fileId)) :
    SameOutcome (r.sendAll xs) (r.sendAll ys) := by
  induction xs generalizing r ys with
  | nil =>
    have hnone : ys = [] := by
      apply List.eq_nil_iff_forall_not_mem.mpr
      intro y hy
      have hmem : y ∈ ys.filter (·.fileId == y.fileId) := List.mem_filter.mpr ⟨hy, by simp⟩
      rw [h] at hmem
      cases hmem
    rw [hnone]
    exact ⟨fun _ => rfl, .refl _⟩
  | cons x xs ih =>
    have hfirst := h x.fileId
    rw [List.filter_cons_of_pos (by simp)] at hfirst
    obtain ⟨us, vs, rfl, hus, -, hvs⟩ := List.filter_eq_cons_iff.mp hfirst
    have hne : ∀ u ∈ us, x.fileId ≠ u.fileId := fun u hu he => hus u hu (by simp [he])
    obtain ⟨hx, hrest, hrest'⟩ := hxs.of_cons hr
    have hothers : ∀ fileId, (us ++ vs).filter (·.fileId == fileId) =
        xs.filter (·.fileId == fileId) := by
      intro fileId
      have hfile := h fileId
      by_cases hid : x.fileId = fileId
      · subst hid
        have hnone : us.filter (·.fileId == x.fileId) = [] := by
          apply List.filter_eq_nil_iff.mpr
          intro u hu
          simpa using (hne u hu).symm
        rw [List.filter_append, hnone, List.nil_append, hvs]
      · simpa [List.filter_append, List.filter_cons, hid] using hfile
    have hacc : r.Accepts (x :: (us ++ vs)) := by
      intro y hy
      rcases List.mem_cons.mp hy with rfl | hy
      · exact hx
      · have hmem : y ∈ (us ++ vs).filter (·.fileId == y.fileId) :=
          List.mem_filter.mpr ⟨hy, by simp⟩
        rw [hothers] at hmem
        exact hrest y (List.mem_filter.mp hmem).1
    have hmoved : SameOutcome (r.sendAll (x :: xs)) (r.sendAll (x :: (us ++ vs))) :=
      (ih (send_calm hr hx).1 hrest' hothers).cons
    exact hmoved.trans (sendAll_front hr hacc hne)

/-- The chunks of some files, one file after the other. -/
def oneByOne (ids : List String) (xs : List Sending) : List Sending :=
  ids.flatMap fun fileId => xs.filter (·.fileId == fileId)

theorem filter_oneByOne {ids : List String} (hids : ids.Nodup) (fileId : String) :
    (oneByOne ids xs).filter (·.fileId == fileId) =
      if fileId ∈ ids then xs.filter (·.fileId == fileId) else [] := by
  induction ids with
  | nil => rfl
  | cons first ids ih =>
    obtain ⟨hfirst, hids⟩ := List.nodup_cons.mp hids
    have hcons : oneByOne (first :: ids) xs =
        xs.filter (·.fileId == first) ++ oneByOne ids xs := rfl
    rw [hcons, List.filter_append, ih hids, List.filter_filter]
    by_cases hid : fileId = first
    · subst hid
      simp [hfirst]
    · have hnone : xs.filter (fun x => x.fileId == fileId && x.fileId == first) = [] := by
        apply List.filter_eq_nil_iff.mpr
        intro x _ hx
        obtain ⟨h, h'⟩ := Bool.and_eq_true_iff.mp hx
        exact hid ((beq_iff_eq.mp h).symm.trans (beq_iff_eq.mp h'))
      simp [hnone, hid]

/-- **The files of a session are independent.** In every state that a receiver reaches, if no link
stands in the folder for received files: two chunks of different files are answered the same in
either order, and leave the same records and the same on the disk; and chunks of any number of files
in any order have the outcome that they have one file after the other. -/
theorem files_independent {start : Receiver} (hidle : start.session = none) (events : List Event)
    (hlinks : (start.after events).disk.Linkless start.outputFolder) :
    (∀ x y, (start.after events).Accepts [x, y] → x.fileId ≠ y.fileId →
      (((start.after events).send x).2.send y).1 = ((start.after events).send y).1 ∧
      (((start.after events).send y).2.send x).1 = ((start.after events).send x).1 ∧
      (((start.after events).send x).2.send y).2.Matches
        (((start.after events).send y).2.send x).2) ∧
    ∀ (xs : List Sending) (ids : List String), (start.after events).Accepts xs → ids.Nodup →
      (∀ x ∈ xs, x.fileId ∈ ids) →
      SameOutcome ((start.after events).sendAll xs)
        ((start.after events).sendAll (oneByOne ids xs)) := by
  have htidy := tidy_after (tidy_of_idle hidle) events
  rw [← outputFolder_after start events] at hlinks
  generalize start.after events = r at htidy hlinks ⊢
  have hr : r.Calm := ⟨htidy, hlinks⟩
  refine ⟨fun x y hacc hne => ?_, fun xs ids hacc hids hall => ?_⟩
  · exact send_comm hr (hacc x List.mem_cons_self) (hacc y (by simp)) hne
  · apply sendAll_interleaved hr hacc
    intro fileId
    rw [filter_oneByOne hids]
    split
    · rfl
    · rename_i hout
      apply Eq.symm
      apply List.filter_eq_nil_iff.mpr
      intro x hx hid
      exact hout (beq_iff_eq.mp hid ▸ hall x hx)

/-- A session is opened for three files. -/
def clashingOpened : List Operation :=
  [.pair "123456" { id := "d", nickname := "n" }, .openSession "s" clashingManifest]

/-- Chunks of two files in turn. The first of them is cut off by a full disk and sent again. -/
def alternating : List Sending :=
  [⟨"f", ⟨#[1]⟩, [none, some ⟨.noSpace, 1⟩]⟩, ⟨"g", ⟨#[2]⟩, []⟩, ⟨"f", ⟨#[1]⟩, []⟩,
    ⟨"f", ⟨#[3]⟩, []⟩]

theorem alternating_independent :
    (((unpairedExample.after (clashingOpened.map .asked)).sendAll alternating).1.map fun a =>
        a.2.toOption.map (·.result.status)) =
      [some .failed, some .completed, some .receiving, some .completed] ∧
    SameOutcome ((unpairedExample.after (clashingOpened.map .asked)).sendAll alternating)
      ((unpairedExample.after (clashingOpened.map .asked)).sendAll
        (oneByOne ["f", "g"] alternating)) := by
  have hordered : Admission.ordered clashingManifest = clashingManifest :=
    List.mergeSort_of_pairwise (by decide)
  have hstatuses : (((unpairedExample.after (clashingOpened.map .asked)).sendAll alternating).1.map
      fun a => a.2.toOption.map (·.result.status)) =
        [some .failed, some .completed, some .receiving, some .completed] := by
    simp only [clashingOpened, List.map_cons, List.map_nil, after_cons, after_nil, meet, perform,
      openForPeer, openSession, Admission.ofManifest, hordered]
    decide +kernel
  have hknown : (alternating.all fun x =>
      ((unpairedExample.after (clashingOpened.map .asked)).file? x.fileId).isSome) = true := by
    simp only [clashingOpened, List.map_cons, List.map_nil, after_cons, after_nil, meet, perform,
      openForPeer, openSession, Admission.ofManifest, hordered]
    decide +kernel
  have hids : (alternating.all fun x => decide (x.fileId ∈ ["f", "g"])) = true := by decide
  have hidle : unpairedExample.session = none := rfl
  refine ⟨hstatuses, (files_independent hidle (clashingOpened.map .asked)
    (linkless_example clashingOpened)).2 alternating ["f", "g"] ?_ (by decide) ?_⟩
  · exact fun x hx => List.all_eq_true.mp hknown x hx
  · exact fun x hx => of_decide_eq_true (List.all_eq_true.mp hids x hx)

end Receiver
end FileReceiver
