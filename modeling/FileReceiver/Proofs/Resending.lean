/-
# Sending a chunk again

A chunk may be answered by a failure before it is counted or after. Before,
the transfer is as it was and so is what the staging file holds of it, so that
the chunk can be sent again. After, when the file could not be completed, the
chunk has been counted and stays in the staging file: a sender that sends it
again puts it there twice. So the final file holds every chunk once if, and
only if, no chunk with bytes in it met with a failure to complete the file
(`sent_once_iff`).

Key definitions: `Disk.fileAt?`, `Transfer.counted`, `Sent`.
Key theorems: `Transfer.counted_refused`, `Sent.whole`,
`Transfer.sent_once_iff`.
-/
import FileReceiver.Proofs.Delivery

namespace FileReceiver

/-- The content of the file that a path leads to, through links. -/
def Disk.fileAt? (d : Disk) (p : Path) : Option ByteArray :=
  match d.resolve .followed p with
  | .error _ => none
  | .ok place =>
    match d.get? place.location with
    | some (.file _ content) => some content
    | _ => none

theorem Disk.fileAt?_of_resolve {d : Disk} {p : Path} {place : Place} {mode : Nat}
    {content : ByteArray} (hr : d.resolve .followed p = .ok place)
    (hf : d.get? place.location = some (.file mode content)) : d.fileAt? p = some content := by
  simp [fileAt?, hr, hf]

theorem Disk.fileAt?_edits {d d' : Disk} {p : Path} (h : d.Edits [] d') :
    d'.fileAt? p = d.fileAt? p := by
  rcases hr : d.resolve .followed p with e | place
  · rcases hr' : d'.resolve .followed p with e' | place
    · simp [fileAt?, hr, hr']
    · rw [h.resolve, hr] at hr'
      cases hr'
  · simp [fileAt?, hr, h.resolve.mpr hr, h.get?_of_nil]

namespace Transfer

variable {t t' : Transfer} {d d' : Disk} {bytes : ByteArray}

/-- What the staging file holds of the bytes that have been counted. -/
def counted (t : Transfer) (d : Disk) : ByteArray :=
  ((d.fileAt? t.stagingPath).getD .empty).extract 0 t.received

/-- **Before it is counted.** A chunk that cannot be appended leaves what has been counted, if what
it has left behind can be cut off. -/
theorem counted_refused {e : SystemError} (hsound : (t.counted d).size = t.received)
    (hback : t.RollsBack bytes d) (h : t.append bytes d = (.error e, d')) :
    t.counted d' = t.counted d := by
  by_cases hzero : t.received = 0
  · simp [counted, hzero]
  unfold append at h
  have hopening : t.openStaging d = d.openEnd t.stagingPath := by
    rw [openStaging, if_pos (Nat.pos_of_ne_zero hzero)]
  rcases hopen : d.openEnd t.stagingPath with ⟨res, opened⟩
  rw [hopening, hopen] at h
  obtain ⟨hedit, ⟨e', rfl⟩ | ⟨place, hr, rfl, -⟩⟩ := Disk.openEnd_cases hopen
  · cases h
    rw [counted, counted, Disk.fileAt?_edits hedit]
  have hsame : t.counted opened = t.counted d := by
    rw [counted, counted, Disk.fileAt?_edits hedit]
  rw [← hsame] at hsound ⊢
  have hr := hedit.resolve.mpr hr
  -- What has been counted is in the file that was opened, so that there is one.
  obtain ⟨mode, content, hf⟩ : ∃ mode content, opened.get? place.location =
      some (.file mode content) := by
    match hget : opened.get? place.location with
    | some (.file mode content) => exact ⟨mode, content, rfl⟩
    | none | some .folder | some (.link _) | some .fullDevice =>
      simp [counted, Disk.fileAt?, hr, hget] at hsound
      omega
  have hcount : t.counted opened = content.extract 0 t.received := by
    rw [counted, Disk.fileAt?_of_resolve hr hf, Option.getD_some]
  have hle : t.received ≤ content.size := by
    rw [hcount, ByteArray.size_extract] at hsound
    omega
  dsimp only at h
  rcases hw : opened.write place.location bytes with ⟨res, written⟩
  rw [hw] at h
  obtain ⟨hedit', ⟨rfl, -⟩ | ⟨e', n, rfl, hpart⟩⟩ := Disk.write_file hf hw
  · cases h
  have hok := hback place.location opened e' written (hopening.trans hopen) hw
  cases h
  rcases hset : written.setLength place.location t.received with ⟨res, cut⟩
  rw [hset] at hok
  rcases Disk.setLength_file hpart hset with ⟨⟨e, rfl⟩, -⟩ | ⟨-, hedit'', hcut⟩
  · cases hok
  rw [Disk.resized_of_le (by rw [ByteArray.size_append]; omega)] at hcut
  have hr' := hedit''.resolve.mpr (hedit'.resolve.mpr hr)
  rw [hcount, counted, Disk.fileAt?_of_resolve hr' hcut, Option.getD_some,
    ByteArray.extract_extract, ByteArray.extract_append]
  simp [Nat.sub_eq_zero_of_le hle]

/-- A failure comes before the chunk is counted or after, and after it no more than the bytes of
the chunk have been counted. -/
theorem failed_cases {e : SystemError} (hopen : t.completed = false)
    (hsound : (t.counted d).size = t.received) (hback : t.RollsBack bytes d)
    (h : t.receive bytes d = (.failed e, t', d')) :
    (∃ e, (t.append bytes d).1 = .error e) ∧ t'.received = t.received ∧
        t'.counted d' = t.counted d ∨
      (t.append bytes d).1 = .ok () ∧ t'.received = t.received + bytes.size := by
  rcases receive_cases h with ⟨hdone, -⟩ | ⟨-, ⟨e, ha, -, rfl⟩ | ⟨appended, ha, h⟩⟩
  · rw [hopen] at hdone
    cases hdone
  · exact Or.inl ⟨⟨e, by rw [ha]⟩, rfl, counted_refused hsound hback ha⟩
  · rcases h with ⟨-, hresult, -⟩ | ⟨-, h⟩
    · cases hresult
    · obtain ⟨completed, v, rfl⟩ := finish_keeps h
      exact Or.inr ⟨by rw [ha], rfl⟩

/-! ### A sender that tries again -/

/-- A sender gets chunks across: it sends each until that is not answered by a failure, and the
last is answered by `completed`. The second list is of the chunks that were counted although they
were answered by a failure. -/
inductive Sent : Transfer × Disk → List ByteArray → List ByteArray → Transfer × Disk → Prop
  | last {s bytes} (answer : (s.1.receive bytes s.2).1.status = .completed) :
      Sent s [bytes] [] (s.1.receive bytes s.2).2
  | next {s bytes rest twice s'} (answer : (s.1.receive bytes s.2).1.status = .receiving)
      (more : Sent (s.1.receive bytes s.2).2 rest twice s') : Sent s (bytes :: rest) twice s'
  /-- The chunk was not counted, and what the write left behind was cut off. -/
  | refused {s bytes rest twice s'} (answer : (s.1.receive bytes s.2).1.status = .failed)
      (failed : ∃ e, (s.1.append bytes s.2).1 = .error e) (back : s.1.RollsBack bytes s.2)
      (again : Sent (s.1.receive bytes s.2).2 (bytes :: rest) twice s') :
      Sent s (bytes :: rest) twice s'
  /-- The chunk was counted, and the file could not be completed. -/
  | unfinished {s bytes rest twice s'} (answer : (s.1.receive bytes s.2).1.status = .failed)
      (appended : (s.1.append bytes s.2).1 = .ok ())
      (again : Sent (s.1.receive bytes s.2).2 (bytes :: rest) twice s') :
      Sent s (bytes :: rest) (bytes :: twice) s'

theorem joined_cons (bytes : ByteArray) (rest : List ByteArray) :
    joined (bytes :: rest) = bytes ++ joined rest := by
  have hfold : ∀ (start : ByteArray), rest.foldl (· ++ ·) start = start ++ joined rest := by
    induction rest with
    | nil => intro start; simp [joined]
    | cons bytes rest ih =>
      intro start
      rw [joined, List.foldl_cons, List.foldl_cons, ih, ih, ByteArray.append_assoc,
        ByteArray.empty_append]
  rw [joined, List.foldl_cons, hfold, ByteArray.empty_append]

/-- **What the sender gets across.** At the end the final path holds the chunks, and as many bytes
more as were counted twice; without such bytes it holds the chunks behind each other. -/
theorem Sent.whole {s s' : Transfer × Disk} {chunks twice : List ByteArray} {content : ByteArray}
    {staging final : Location} (h : Sent s chunks twice s')
    (hc : s.1.Counts s.2 staging content) (hp : s.1.Placed s.2 staging final) :
    ∃ mode whole, s'.2.entryAt? s.1.finalPath = some (.file mode whole) ∧
      whole.size = content.size + (joined chunks).size + (joined twice).size ∧
      (joined twice = .empty → whole = content ++ joined chunks) := by
  induction h generalizing content with
  | @last s bytes answer =>
    rcases h : s.1.receive bytes s.2 with ⟨result, t', d'⟩
    rw [h] at answer
    cases receive_step hc hp h with
    | refused | taken | unfinished => cases answer
    | finished _ _ _ _ _ _ _ state _ there =>
      obtain ⟨mode, hf⟩ := there
      have hone : joined [bytes] = bytes := by simp [joined]
      refine ⟨mode, _, hf, ?_, fun _ => by rw [hone]⟩
      rw [hone, ByteArray.size_append]
      simp [joined]
  | @next s bytes rest twice s' answer more ih =>
    rcases h : s.1.receive bytes s.2 with ⟨result, t', d'⟩
    rw [h] at answer ih
    cases receive_step hc hp h with
    | refused | unfinished => cases answer
    | finished _ _ _ completion =>
      rw [completion, status_completion] at answer
      cases answer
    | taken _ _ edits _ counts _ =>
      obtain ⟨mode, whole, hf, hsize, hwhole⟩ := ih counts ((hp.edits edits).counting bytes.size)
      refine ⟨mode, whole, hf, ?_, fun htwice => ?_⟩
      · rw [hsize, joined_cons]
        simp only [ByteArray.size_append]
        omega
      · rw [hwhole htwice, joined_cons, ByteArray.append_assoc]
  | @refused s bytes rest twice s' answer failed back again ih =>
    rcases h : s.1.receive bytes s.2 with ⟨result, t', d'⟩
    rw [h] at answer ih
    obtain ⟨e, failed⟩ := failed
    cases receive_step hc hp h with
    | taken => cases answer
    | refused _ _ _ edits counts => exact ih (counts back) (hp.edits edits)
    | unfinished _ _ _ appended | finished _ _ _ _ appended =>
      rw [failed] at appended
      cases appended
  | @unfinished s bytes rest twice s' answer appended again ih =>
    rcases h : s.1.receive bytes s.2 with ⟨result, t', d'⟩
    rw [h] at answer ih
    cases receive_step hc hp h with
    | taken => cases answer
    | refused _ _ failed =>
      obtain ⟨e, failed⟩ := failed
      rw [failed] at appended
      cases appended
    | unfinished _ _ v _ edits _ counts =>
      obtain ⟨mode, whole, hf, hsize, hwhole⟩ :=
        ih counts (((hp.edits edits).counting bytes.size).verified v)
      refine ⟨mode, whole, hf, ?_, fun htwice => ?_⟩
      · rw [hsize, joined_cons bytes twice]
        simp only [ByteArray.size_append]
        omega
      · rw [joined_cons, ByteArray.append_eq_empty_iff] at htwice
        rw [hwhole htwice.2, htwice.1, ByteArray.append_empty]
    | finished _ _ _ completion =>
      rw [completion, status_completion] at answer
      cases answer

/-- The two files of an offered file that are no links have places of their own. -/
theorem exists_placed {fileId : String} {offer : FileOffer} {p : Path} {claims : Claims}
    (ht : t = ofOffer fileId offer p claims)
    (hstaging : ∀ target, d.entryAt? t.stagingPath ≠ some (.link target))
    (hfinal : ∀ target, d.entryAt? t.finalPath ≠ some (.link target))
    (hdevice : d.entryAt? t.stagingPath ≠ some .fullDevice) :
    ∃ staging final, t.Placed d staging final ∧ t.Counts d staging .empty := by
  obtain ⟨name, hlies⟩ := exists_liesIn fileId offer p claims
  rw [← ht] at hlies
  have hpart := FileName.plain_staged hlies.plain
  have hfresh : ∀ staging, d.get? staging ≠ some .fullDevice → t.Counts d staging .empty := by
    intro staging hdev
    refine ⟨?_, fun _ => ?_, ?_, Or.inl ⟨rfl, hdev⟩⟩
    all_goals rw [ht]; rfl
  rw [hlies.final] at hfinal
  by_cases hsome : ∃ lastName place, d.resolve lastName t.stagingPath = .ok place
  · obtain ⟨lastName, place, hr⟩ := hsome
    rw [hlies.staging] at hr hstaging hdevice
    obtain ⟨loc, hloc, hkept⟩ := Disk.resolve_join_kept hpart hr
    have hat := Disk.isAt_of_folderAt hloc
    refine ⟨loc ++ [name ++ FileName.stagingSuffix], loc ++ [name], ⟨?_, ?_, ?_⟩, hfresh _ ?_⟩
    · rw [hlies.staging]
      exact Disk.aims_join hpart hat hstaging
    · rw [hlies.final]
      exact Disk.aims_join hlies.plain hat hfinal
    · simpa using FileName.staged_ne name
    · rwa [Disk.entryAt?_of_resolve hkept] at hdevice
  · -- A staging path that leads nowhere aims everywhere, at the root for one.
    have haims : d.Aims t.stagingPath [] := fun lastName place hr => absurd ⟨_, _, hr⟩ hsome
    have hroot : t.Counts d [] .empty := hfresh [] (by simp [Disk.get?_root])
    obtain ⟨loc, hat⟩ := d.exists_isAt p
    refine ⟨[], loc ++ [name], ⟨haims, ?_, by simp⟩, hroot⟩
    rw [hlies.final]
    exact Disk.aims_join hlies.plain hat hfinal

/-- **Sent again, counted again.** A chunk that is answered by a failure has not been counted, and
what has been counted is as it was, or it was appended and has been counted. What a sender gets
across that tries again is each chunk once just if only empty ones are counted although they were
answered by a failure; the others stand in the file twice. -/
theorem sent_once_iff {fileId : String} {offer : FileOffer} {p : Path} {claims : Claims}
    (ht : t = ofOffer fileId offer p claims)
    (hstaging : ∀ target, d.entryAt? t.stagingPath ≠ some (.link target))
    (hfinal : ∀ target, d.entryAt? t.finalPath ≠ some (.link target))
    (hdevice : d.entryAt? t.stagingPath ≠ some .fullDevice) {chunks twice : List ByteArray}
    {s : Transfer × Disk} (hsent : Sent (t, d) chunks twice s) :
    (∀ (u : Transfer) (bytes : ByteArray) (disk : Disk) (e : SystemError) (u' : Transfer)
        (disk' : Disk), u.completed = false → (u.counted disk).size = u.received →
      u.RollsBack bytes disk → u.receive bytes disk = (.failed e, u', disk') →
      (∃ e, (u.append bytes disk).1 = .error e) ∧ u'.received = u.received ∧
          u'.counted disk' = u.counted disk ∨
        (u.append bytes disk).1 = .ok () ∧ u'.received = u.received + bytes.size) ∧
      ∃ whole, s.2.contentAt? t.finalPath = some whole ∧
        whole.size = (joined chunks).size + (joined twice).size ∧
        (whole = joined chunks ↔ joined twice = .empty) := by
  refine ⟨fun u bytes disk e u' disk' hopen hsound hback h => failed_cases hopen hsound hback h, ?_⟩
  obtain ⟨staging, final, hp, hc⟩ := exists_placed ht hstaging hfinal hdevice
  obtain ⟨mode, whole, hentry, hsize, hwhole⟩ := hsent.whole hc hp
  rw [ByteArray.size_empty, Nat.zero_add] at hsize
  rw [ByteArray.empty_append] at hwhole
  refine ⟨whole, by rw [Disk.contentAt?, hentry], hsize, fun hsame => ?_, hwhole⟩
  rw [hsame] at hsize
  exact ByteArray.size_eq_zero_iff.mp (by omega)

def triedFile : Transfer where
  fileId := "f"
  declaredName := "a.txt"
  declaredSize := 3
  kind := "generic"
  finalPath := ⟨"out/a.txt"⟩
  stagingPath := ⟨"out/a.txt.part"⟩

def triedChunk : ByteArray := ⟨#[1, 2, 3]⟩

/-- The first write fails and leaves two bytes behind. -/
def fullOnceDisk : Disk := (Disk.mk ∅ [] [none, some ⟨.noSpace, 2⟩]).put ["out"] .folder

theorem rollsBack_triedFile : triedFile.RollsBack triedChunk fullOnceDisk := by
  intro loc opened e failed hopen hwrite
  have hloc : (triedFile.openStaging fullOnceDisk).1 = .ok ["out", "a.txt.part"] := rfl
  rw [hopen] at hloc
  cases hloc
  have hopened : opened = (triedFile.openStaging fullOnceDisk).2 := by rw [hopen]
  have hfailed : failed = (opened.write ["out", "a.txt.part"] triedChunk).2 := by rw [hwrite]
  subst hopened
  subst hfailed
  rfl

theorem sent_triedFile : ∃ s, Sent (triedFile, fullOnceDisk) [triedChunk] [] s := by
  have hfirst : (triedFile.receive triedChunk fullOnceDisk).1.status = .failed := by
    decide +kernel
  have happend : (triedFile.append triedChunk fullOnceDisk).1 = .error .noSpace := rfl
  have hsecond : ((triedFile.receive triedChunk fullOnceDisk).2.1.receive triedChunk
      (triedFile.receive triedChunk fullOnceDisk).2.2).1.status = .completed := by
    decide +kernel
  have hlast := @Sent.last (triedFile.receive triedChunk fullOnceDisk).2 triedChunk hsecond
  exact ⟨_, @Sent.refused (triedFile, fullOnceDisk) _ _ _ _ hfirst ⟨_, happend⟩
    rollsBack_triedFile hlast⟩

theorem sent_once_despite_full_disk :
    (∃ e, (triedFile.receive triedChunk fullOnceDisk).1 = .failed e ∧
        (triedFile.receive triedChunk fullOnceDisk).2.1.received = 0) ∧
      ∃ s, Sent (triedFile, fullOnceDisk) [triedChunk] [] s ∧
        s.2.contentAt? ⟨"out/a.txt"⟩ = some triedChunk := by
  have hanswer : (triedFile.receive triedChunk fullOnceDisk).1 = .failed .noSpace := by
    decide +kernel
  have happend : (triedFile.append triedChunk fullOnceDisk).1 = .error .noSpace := rfl
  have hsound : (triedFile.counted fullOnceDisk).size = triedFile.received := by decide +kernel
  have hreceive : triedFile.receive triedChunk fullOnceDisk =
      (.failed .noSpace, (triedFile.receive triedChunk fullOnceDisk).2) := Prod.ext hanswer rfl
  have htried : triedFile = ofOffer "f" { name := some "a.txt", size := 3 } ⟨"out"⟩ [] := by decide
  obtain ⟨s, hsent⟩ := sent_triedFile
  obtain ⟨hfailed, whole, hcontent, -, hsame⟩ :=
    sent_once_iff (d := fullOnceDisk) htried nofun nofun nofun hsent
  have hcases := hfailed triedFile triedChunk fullOnceDisk .noSpace _ _ rfl hsound
    rollsBack_triedFile hreceive
  have hwhole : whole = triedChunk := by
    rw [hsame.mpr rfl]
    decide
  subst hwhole
  refine ⟨⟨_, hanswer, ?_⟩, s, hsent, hcontent⟩
  rcases hcases with ⟨-, hreceived, -⟩ | ⟨hok, -⟩
  · exact hreceived
  · rw [happend] at hok
    cases hok

/-- A folder stands at the final path. -/
def blockedFile : Transfer where
  fileId := "f1"
  declaredName := "data.bin"
  declaredSize := 5
  kind := "generic"
  finalPath := ⟨"data.bin"⟩
  stagingPath := ⟨"data.bin.part"⟩

def blockedDisk : Disk := (Disk.mk ∅ [] []).put ["data.bin"] .folder

def blockedChunk : ByteArray := ⟨#[104, 101, 108, 108, 111]⟩

theorem counted_although_failed :
    blockedFile.completed = false ∧ (blockedFile.counted blockedDisk).size = blockedFile.received ∧
      blockedFile.RollsBack blockedChunk blockedDisk ∧
      (blockedFile.receive blockedChunk blockedDisk).1 = .failed .isFolder ∧
      (blockedFile.receive blockedChunk blockedDisk).2.1.received ≠ blockedFile.received ∧
      (blockedFile.receive blockedChunk blockedDisk).2.1.counted
          (blockedFile.receive blockedChunk blockedDisk).2.2 ≠ blockedFile.counted blockedDisk := by
  refine ⟨rfl, by decide +kernel, ?_, by decide +kernel, by decide +kernel, by decide +kernel⟩
  intro loc opened e failed hopen hwrite
  have hloc : (blockedFile.openStaging blockedDisk).1 = .ok ["data.bin.part"] := rfl
  have hok : ((blockedFile.openStaging blockedDisk).2.write ["data.bin.part"] blockedChunk).1 =
      .ok () := rfl
  rw [hopen] at hloc hok
  cases hloc
  rw [hwrite] at hok
  cases hok

end Transfer
end FileReceiver
